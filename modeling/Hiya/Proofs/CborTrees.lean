import Hiya.Cbor.Tree
import Hiya.Proofs.CborWrites

/-! Values that are written and read back. The item of a negative integer has room for
64 bits, which hold either its argument or its signed value; the decoder leaves the
signed value there, and for a smaller integer than it can hold a sentinel. -/

namespace Hiya.Cbor
open Library

namespace Tree

def flat (pairs : List (Tree × Tree)) : List Tree := pairs.flatMap fun pair => [pair.1, pair.2]

@[elab_as_elim]
theorem induction {motive : Tree → Prop} (uint : ∀ value, motive (.uint value)) (negint : ∀ value, motive (.negint value))
    (bstr : ∀ data, motive (.bstr data)) (tstr : ∀ data, motive (.tstr data))
    (array : ∀ items, (∀ item ∈ items, motive item) → motive (.array items))
    (map : ∀ pairs, (∀ item ∈ flat pairs, motive item) → motive (.map pairs))
    (tag : ∀ number item, motive item → motive (.tag number item)) (simple : ∀ value, motive (.simple value)) (tree : Tree) :
    motive tree := by
  refine @Tree.rec motive (fun items => ∀ item ∈ items, motive item) (fun pairs => ∀ item ∈ flat pairs, motive item)
    (fun pair => motive pair.1 ∧ motive pair.2) uint negint bstr tstr array map tag simple ?_ ?_ ?_ ?_ ?_ tree
  · exact fun _ inside => absurd inside List.not_mem_nil
  · intro item rest first others later inside
    obtain rfl | inside := List.mem_cons.mp inside
    · exact first
    · exact others later inside
  · exact fun _ inside => absurd inside List.not_mem_nil
  · intro pair rest first others later inside
    obtain rfl | inside := List.mem_cons.mp inside
    · exact first.1
    · obtain rfl | inside := List.mem_cons.mp inside
      · exact first.2
      · exact others later inside
  · exact fun _ _ key value => ⟨key, value⟩

mutual

/-- How many containers are open at once. A tag opens none. -/
def nesting : Tree → Nat
  | .array items => nestingAll items + 1
  | .map pairs => nestingPairs pairs + 1
  | .tag _ item => nesting item
  | _ => 0

def nestingAll : List Tree → Nat
  | [] => 0
  | item :: rest => max (nesting item) (nestingAll rest)

def nestingPairs : List (Tree × Tree) → Nat
  | [] => 0
  | (key, value) :: rest => max (nesting key) (max (nesting value) (nestingPairs rest))

end

mutual

def bytes : Tree → Bytes
  | .uint value => headBytes .uint value.toNat
  | .negint value => headBytes .negint value.toNat
  | .bstr data => headBytes .bstr data.length ++ data
  | .tstr data => headBytes .tstr data.length ++ data
  | .array items => headBytes .array items.length ++ bytesAll items
  | .map pairs => headBytes .map pairs.length ++ bytesPairs pairs
  | .tag number item => headBytes .tag number.toNat ++ bytes item
  | .simple value => headBytes .simple value.val.toNat

def bytesAll : List Tree → Bytes
  | [] => []
  | item :: rest => bytes item ++ bytesAll rest

def bytesPairs : List (Tree × Tree) → Bytes
  | [] => []
  | (key, value) :: rest => bytes key ++ (bytes value ++ bytesPairs rest)

end

mutual

/-- No negative integer is below the smallest signed one. -/
def inRange : Tree → Bool
  | .negint value => value.toNat ≤ int64Max
  | .array items => inRangeAll items
  | .map pairs => inRangePairs pairs
  | .tag _ item => inRange item
  | _ => true

def inRangeAll : List Tree → Bool
  | [] => true
  | item :: rest => inRange item && inRangeAll rest

def inRangePairs : List (Tree × Tree) → Bool
  | [] => true
  | (key, value) :: rest => inRange key && (inRange value && inRangePairs rest)

end

mutual

def seen : Tree → Tree
  | .negint value => .negint (if value.toNat ≤ int64Max then value else UInt64.ofNat int64Max)
  | .array items => .array (seenAll items)
  | .map pairs => .map (seenPairs pairs)
  | .tag number item => .tag number (seen item)
  | tree => tree

def seenAll : List Tree → List Tree
  | [] => []
  | item :: rest => seen item :: seenAll rest

def seenPairs : List (Tree × Tree) → List (Tree × Tree)
  | [] => []
  | (key, value) :: rest => (seen key, seen value) :: seenPairs rest

end

theorem flat_cons (key value : Tree) (rest : List (Tree × Tree)) : flat ((key, value) :: rest) =
    key :: value :: flat rest := rfl

theorem length_flat (pairs : List (Tree × Tree)) : (flat pairs).length = pairs.length * 2 := by
  induction pairs with
  | nil => rfl
  | cons pair rest ih =>
    rw [flat_cons, List.length_cons, List.length_cons, List.length_cons, ih]
    omega

theorem nestingPairs_eq (pairs : List (Tree × Tree)) : nestingPairs pairs = nestingAll (flat pairs) := by
  induction pairs with
  | nil => rfl
  | cons pair rest ih => rw [nestingPairs, flat_cons, nestingAll, nestingAll, ih]

theorem bytesPairs_eq (pairs : List (Tree × Tree)) : bytesPairs pairs = bytesAll (flat pairs) := by
  induction pairs with
  | nil => rfl
  | cons pair rest ih => rw [bytesPairs, flat_cons, bytesAll, bytesAll, ih]

theorem inRangePairs_eq (pairs : List (Tree × Tree)) : inRangePairs pairs = inRangeAll (flat pairs) := by
  induction pairs with
  | nil => rfl
  | cons pair rest ih => rw [inRangePairs, flat_cons, inRangeAll, inRangeAll, ih]

theorem seenPairs_flat (pairs : List (Tree × Tree)) : flat (seenPairs pairs) = seenAll (flat pairs) := by
  induction pairs with
  | nil => rfl
  | cons pair rest ih => rw [seenPairs, flat_cons, flat_cons, seenAll, seenAll, ih]

theorem flat_inj {first second : List (Tree × Tree)} (same : flat first = flat second) : first = second := by
  induction first generalizing second with
  | nil =>
    cases second with
    | nil => rfl
    | cons pair rest => cases same
  | cons pair rest ih =>
    cases second with
    | nil => cases same
    | cons other more =>
      obtain ⟨key, same⟩ := List.cons.inj same
      obtain ⟨value, same⟩ := List.cons.inj same
      rw [Prod.ext key value, ih same]

theorem bytes_ne_nil (tree : Tree) : tree.bytes ≠ [] := by
  cases tree with
  | uint value => exact headBytes_ne_nil _ _
  | negint value => exact headBytes_ne_nil _ _
  | simple value => exact headBytes_ne_nil _ _
  | _ => exact List.append_ne_nil_of_left_ne_nil (headBytes_ne_nil _ _) _

theorem length_le_bytesAll (items : List Tree) : items.length ≤ (bytesAll items).length := by
  induction items with
  | nil => exact Nat.le_refl 0
  | cons item rest ih =>
    have some := List.length_pos_iff.mpr item.bytes_ne_nil
    rw [bytesAll, List.length_append, List.length_cons]
    omega

theorem mem_bytesAll {item : Tree} {items : List Tree} (inside : item ∈ items) :
    item.bytes.length ≤ (bytesAll items).length := by
  induction items with
  | nil => cases inside
  | cons first rest ih =>
    rw [bytesAll, List.length_append]
    obtain rfl | inside := List.mem_cons.mp inside
    · omega
    · have := ih inside
      omega

theorem mem_nestingAll {item : Tree} {items : List Tree} (inside : item ∈ items) : item.nesting ≤ nestingAll items := by
  induction items with
  | nil => cases inside
  | cons first rest ih =>
    rw [nestingAll]
    obtain rfl | inside := List.mem_cons.mp inside
    · omega
    · have := ih inside
      omega

/-- The decoder shows a value as it is exactly if it is in range. -/
theorem seenAll_eq_iff {items : List Tree} (each : ∀ item ∈ items, item.seen = item ↔ item.inRange = true) :
    seenAll items = items ↔ inRangeAll items = true := by
  induction items with
  | nil => exact ⟨fun _ => rfl, fun _ => rfl⟩
  | cons item rest ih =>
    have others := ih fun later inside => each later (List.mem_cons_of_mem item inside)
    rw [seenAll, inRangeAll, List.cons.injEq, Bool.and_eq_true, each item (List.mem_cons_self ..), others]

theorem seen_eq_iff (tree : Tree) : tree.seen = tree ↔ tree.inRange = true := by
  induction tree using Tree.induction with
  | negint value =>
    unfold seen inRange
    rw [negint.injEq, decide_eq_true_iff]
    split
    next small => exact ⟨fun _ => small, fun _ => rfl⟩
    next large =>
      refine ⟨fun same => ?_, fun small => absurd small large⟩
      exact Nat.le_of_eq (by rw [← same, toNat_ofNat (by decide)])
  | array items each =>
    unfold seen inRange
    rw [array.injEq, seenAll_eq_iff each]
  | map pairs each =>
    unfold seen inRange
    rw [map.injEq, inRangePairs_eq, ← seenAll_eq_iff each, ← seenPairs_flat]
    exact ⟨congrArg flat, flat_inj⟩
  | tag number item whole =>
    unfold seen inRange
    rw [tag.injEq, ← whole]
    exact ⟨And.right, fun same => ⟨rfl, same⟩⟩
  | uint value => exact ⟨fun _ => rfl, fun _ => rfl⟩
  | bstr data => exact ⟨fun _ => rfl, fun _ => rfl⟩
  | tstr data => exact ⟨fun _ => rfl, fun _ => rfl⟩
  | simple value => exact ⟨fun _ => rfl, fun _ => rfl⟩

end Tree

/-- A call that writes one item, as long as `levels` containers can still be opened. -/
def WritesItem (body : Encode Unit) (bytes : Bytes) (levels : Nat) : Prop :=
  ∀ enc, Ready enc → enc.capacity ≤ countMax → enc.buf.length + bytes.length ≤ enc.capacity →
    enc.stack.length + levels ≤ maxDepth → body enc = (.ok (), moved enc bytes (trackItem enc.stack))

theorem writesItem_of {body : Encode Unit} {bytes : Bytes} (writes : Writes body bytes fun stack => some (trackItem stack)) :
    WritesItem body bytes 0 := fun enc ready _ room _ => writes.fits enc _ ready room rfl

theorem headBytes_simple {value : UInt8} (large : ¬ value ≤ 23) : headBytes .simple value.toNat = [0xF8] ++
    ([value] ++ []) := by
  have below : ¬ value.toNat ≤ 23 := fun small => large (UInt8.le_iff_toNat_le.mpr small)
  have above : value.toNat ≤ 0xFF := Nat.le_of_lt_succ value.toNat_lt
  unfold headBytes additionalOf argumentBytes
  rw [if_neg below, if_pos above, if_neg below, if_pos above]
  simp only [beBytes, Nat.pow_zero, Nat.div_one, UInt8.ofNat_toNat]
  rfl

theorem writesItem_simple (value : Simple) : WritesItem (encodeSimple value.val) (headBytes .simple value.val.toNat) 0 := by
  obtain ⟨value, plain⟩ := value
  unfold encodeSimple
  rw [if_neg (by simp [plain])]
  split
  · exact writesItem_of (writes_item _ _)
  next large =>
    have written := (writes_encWrite [0xF8]).bind ((writes_encWrite [value]).bind writes_encTrackItem)
    rw [headBytes_simple large]
    exact writesItem_of written

/-- The items of a container of which `left` are still missing close it and count as one
item of the container below. -/
theorem encodeTrees_fits {items : List Tree} {levels : Nat}
    (each : ∀ item ∈ items, WritesItem (encodeTree item) item.bytes levels) {enc : Encoder} {frame : Frame}
    {below : List Frame}
    (ready : Ready enc) (sized : enc.capacity ≤ countMax)
    (room : enc.buf.length + (Tree.bytesAll items).length ≤ enc.capacity)
    (shallow : enc.stack.length + levels ≤ maxDepth) (top : enc.stack = frame :: below) (nonempty : items ≠ [])
    (left : frame.written + items.length = frame.count) :
    encodeTrees items enc = (.ok (), moved enc (Tree.bytesAll items) (trackItem below)) := by
  induction items generalizing enc frame with
  | nil => exact absurd rfl nonempty
  | cons item rest ih =>
    rw [Tree.bytesAll, List.length_append] at room
    have first := each item (List.mem_cons_self ..) enc ready sized (by omega) shallow
    rw [encodeTrees, Proc.bind_of_ok first, Tree.bytesAll]
    rw [List.length_cons] at left
    cases rest with
    | nil =>
      have full : frame.written + 1 ≥ frame.count := by
        rw [List.length_nil] at left
        omega
      rw [top, trackItem, if_pos full]
      simp [encodeTrees, Tree.bytesAll]
    | cons next more =>
      have unfinished : ¬ frame.written + 1 ≥ frame.count := by
        rw [List.length_cons] at left
        omega
      have missing : frame.written + 1 + (next :: more).length = frame.count := by omega
      rw [top, trackItem, if_neg unfinished]
      rw [ih (fun later inside => each later (List.mem_cons_of_mem item inside)) (ready.moved _ (by omega)) sized _ _ rfl
        (List.cons_ne_nil _ _) missing, moved_moved]
      · simp only [moved_buf, moved_capacity, List.length_append]
        omega
      · rw [top] at shallow
        exact shallow

theorem encodePairs_eq (pairs : List (Tree × Tree)) : encodePairs pairs = encodeTrees (Tree.flat pairs) := by
  induction pairs with
  | nil => rfl
  | cons pair rest ih => rw [encodePairs, Tree.flat_cons, encodeTrees, encodeTrees, ih]

theorem writesItem_container {items : List Tree} {major : Major} {count : Nat} (counted : count = 0 ↔ items = [])
    (each : ∀ item ∈ items, WritesItem (encodeTree item) item.bytes (Tree.nestingAll items)) :
    WritesItem (encodeContainer major count items.length >>= fun _ => encodeTrees items)
      (headBytes major count ++ Tree.bytesAll items) (Tree.nestingAll items + 1) := by
  intro enc ready sized room shallow
  rw [List.length_append] at room
  have few := Tree.length_le_bytesAll items
  have opened := (writes_container major count items.length).fits enc (pushed count items.length enc.stack) ready
    (by omega) (by
    unfold openContainer pushed
    rw [if_neg (by omega)]
    split
    · rfl
    · rfl)
  rw [Proc.bind_of_ok opened]
  by_cases empty : items = []
  · subst empty
    rw [pushed, if_pos (counted.mpr rfl)]
    simp [encodeTrees, Tree.bytesAll]
  · rw [pushed, if_neg fun none => empty (counted.mp none)]
    rw [encodeTrees_fits each (ready.moved _ (by omega)) sized _ _ rfl empty (Nat.zero_add _), moved_moved]
    · simp only [moved_buf, moved_capacity, List.length_append]
      omega
    · rw [moved_stack, List.length_cons]
      omega

theorem WritesItem.mono {body : Encode Unit} {bytes : Bytes} {fewer levels : Nat} (writes : WritesItem body bytes fewer)
    (more : fewer ≤ levels) : WritesItem body bytes levels :=
  fun enc ready sized room shallow => writes enc ready sized room (by omega)

theorem encodeTree_fits (tree : Tree) : WritesItem (encodeTree tree) tree.bytes tree.nesting := by
  induction tree using Tree.induction with
  | uint value => exact writesItem_of (writes_item _ _)
  | negint value => exact writesItem_of (writes_item _ _)
  | bstr data => exact writesItem_of (writes_string _ _)
  | tstr data => exact writesItem_of (writes_string _ _)
  | array items each =>
    unfold Tree.bytes Tree.nesting encodeTree encodeArray
    refine writesItem_container List.length_eq_zero_iff fun item inside => ?_
    exact (each item inside).mono (Tree.mem_nestingAll inside)
  | map pairs each =>
    have empty : pairs.length = 0 ↔ Tree.flat pairs = [] := by
      rw [← List.length_eq_zero_iff, Tree.length_flat]
      omega
    unfold Tree.bytes Tree.nesting encodeTree encodeMap
    rw [Tree.bytesPairs_eq, Tree.nestingPairs_eq, encodePairs_eq, ← Tree.length_flat]
    refine writesItem_container empty fun item inside => ?_
    exact (each item inside).mono (Tree.mem_nestingAll inside)
  | tag number item whole =>
    intro enc ready sized room shallow
    unfold Tree.bytes at room ⊢
    unfold encodeTree encodeTag
    rw [List.length_append] at room
    rw [Proc.bind_of_ok ((writes_encHead .tag number.toNat).fits enc enc.stack ready (by omega) rfl),
      whole _ (ready.moved _ (by omega)) sized _ shallow, moved_moved]
    · rfl
    · simp only [moved_buf, moved_capacity, List.length_append]
      omega
  | simple value => exact writesItem_simple value

theorem reads_collect {α β : Type} {body : Decode β} {bytes : α → Bytes} {value : α → β} {items : List α}
    (each : ∀ item ∈ items, Reads body (bytes item) (value item)) :
    Reads (collect items.length body) (items.flatMap bytes) (items.map value) := by
  have general (read : List β) :
      Reads (Proc.repeatWith items.length (fun read => do pure (read ++ [← body])) read) (items.flatMap bytes)
        (read ++ items.map value) := by
    induction items generalizing read with
    | nil =>
      rw [List.map_nil, List.append_nil]
      exact .pure read
    | cons item rest ih =>
      have later := ih (fun other inside => each other (List.mem_cons_of_mem item inside)) (read ++ [value item])
      rw [List.append_assoc, List.singleton_append] at later
      exact ((each item (List.mem_cons_self ..)).map fun found => read ++ [found]).bind later
  exact general []

theorem Tree.bytesAll_eq (items : List Tree) : Tree.bytesAll items = items.flatMap Tree.bytes := by
  induction items with
  | nil => rfl
  | cons item rest ih => rw [Tree.bytesAll, ih, List.flatMap_cons]

theorem Tree.seenAll_eq (items : List Tree) : Tree.seenAll items = items.map Tree.seen := by
  induction items with
  | nil => rfl
  | cons item rest ih => rw [Tree.seenAll, ih, List.map_cons]

theorem Tree.bytesPairs_flatMap (pairs : List (Tree × Tree)) :
    Tree.bytesPairs pairs = pairs.flatMap fun pair => pair.1.bytes ++ pair.2.bytes := by
  induction pairs with
  | nil => rfl
  | cons pair rest ih => rw [Tree.bytesPairs, ih, List.flatMap_cons, List.append_assoc]

theorem Tree.seenPairs_eq (pairs : List (Tree × Tree)) : Tree.seenPairs pairs = pairs.map fun pair => (pair.1.seen,
    pair.2.seen) := by
  induction pairs with
  | nil => rfl
  | cons pair rest ih => rw [Tree.seenPairs, ih, List.map_cons]

/-- The signed value of an item gives its argument back, or that of the sentinel. -/
theorem negint_seen (value : UInt64) :
    UInt64.ofInt (-1 - if value.toNat ≤ int64Max then -1 - (value.toNat : Int) else int64Min) =
      if value.toNat ≤ int64Max then value else UInt64.ofNat int64Max := by
  split
  · rw [show -1 - (-1 - (value.toNat : Int)) = (value.toNat : Int) by omega]
    have small := value.toNat_lt
    unfold UInt64.ofInt
    rw [Int.emod_eq_of_lt (by omega) (by omega), Int.toNat_natCast, UInt64.ofNat_toNat]
  · rfl

theorem additionalOf_simple (value : UInt8) : additionalOf value.toNat ≤ 24 := by
  have small := value.toNat_lt
  unfold additionalOf
  split
  next tiny =>
    rw [UInt8.ofNat_toNat]
    exact UInt8.le_iff_toNat_le.mpr (Nat.le_succ_of_le tiny)
  · rw [if_pos (by omega)]
    exact UInt8.le_refl 24

/-- A value begins with the head of its first item. -/
theorem reads_level {major : Major} {value levels : Nat} {tail : Bytes} {tree : Tree} (small : value < 2 ^ 64)
    (next : Reads (decodeItem { major, additional := additionalOf value, argument := UInt64.ofNat value } >>=
      readItem (readLevels levels)) tail tree) : Reads (readLevels (levels + 1)) (headBytes major value ++ tail) tree := by
  unfold readLevels
  rw [decodeNext_eq, bind_assoc]
  exact (reads_decHead major value small).bind next

theorem reads_scalar {major : Major} {value levels : Nat} {tree : Tree} (small : value < 2 ^ 64)
    (next : decodeItem { major, additional := additionalOf value, argument := UInt64.ofNat value } >>=
      readItem (readLevels levels) = pure tree) : Reads (readLevels (levels + 1)) (headBytes major value) tree := by
  have whole : Reads (readLevels (levels + 1)) (headBytes major value ++ []) tree := by
    refine reads_level small ?_
    rw [next]
    exact .pure tree
  rwa [List.append_nil] at whole

theorem reads_simple (value : Simple) (levels : Nat) :
    Reads (readLevels (levels + 1)) (headBytes .simple value.val.toNat) (.simple value) := by
  obtain ⟨value, plain⟩ := value
  have small := value.toNat_lt
  have same : (UInt64.ofNat value.toNat).toUInt8 = value := by
    apply UInt8.toNat_inj.mp
    rw [UInt64.toNat_toUInt8, toNat_ofNat (by omega)]
    omega
  refine reads_scalar (Nat.lt_trans small (by decide)) ?_
  unfold decodeItem
  dsimp only
  rw [if_pos (additionalOf_simple value), same, pure_bind]
  exact dif_pos plain

theorem reads_array {items : List Tree} {levels : Nat} (small : items.length < 2 ^ 64)
    (each : ∀ item ∈ items, Reads (readLevels levels) item.bytes item.seen) :
    Reads (readLevels (levels + 1)) (Tree.array items).bytes (Tree.array items).seen := by
  unfold Tree.bytes Tree.seen
  refine reads_level small ?_
  simp only [decodeItem, toNat_ofNat small, bind_assoc, pure_bind]
  refine reads_counted (Tree.length_le_bytesAll items) ?_
  rw [Tree.bytesAll_eq, Tree.seenAll_eq]
  exact (reads_collect each).map Tree.array

theorem reads_map {pairs : List (Tree × Tree)} {levels : Nat} (small : pairs.length < 2 ^ 64)
    (each : ∀ item ∈ Tree.flat pairs, Reads (readLevels levels) item.bytes item.seen) :
    Reads (readLevels (levels + 1)) (Tree.map pairs).bytes (Tree.map pairs).seen := by
  have both (pair : Tree × Tree) (inside : pair ∈ pairs) : Reads (do
      let key ← readLevels levels
      let value ← readLevels levels
      pure (key, value)) (pair.1.bytes ++ pair.2.bytes) (pair.1.seen, pair.2.seen) := by
    have key := each pair.1 (List.mem_flatMap.mpr ⟨pair, inside, List.mem_cons_self ..⟩)
    have value := each pair.2 (List.mem_flatMap.mpr ⟨pair, inside, List.mem_cons_of_mem _ (List.mem_singleton_self _)⟩)
    exact key.bind (value.map fun found => (pair.1.seen, found))
  have few := Tree.length_le_bytesAll (Tree.flat pairs)
  rw [Tree.length_flat, ← Tree.bytesPairs_eq] at few
  unfold Tree.bytes Tree.seen
  refine reads_level small ?_
  simp only [decodeItem, toNat_ofNat small, bind_assoc, pure_bind]
  refine reads_counted few ?_
  rw [Tree.bytesPairs_flatMap, Tree.seenPairs_eq]
  exact (reads_collect both).map Tree.map

/-- A value has a byte, so a level is left for it. -/
theorem reads_inner {tree : Tree} {levels : Nat} (enough : tree.bytes.length ≤ levels)
    (reads : ∀ levels, tree.bytes.length ≤ levels + 1 → Reads (readLevels (levels + 1)) tree.bytes tree.seen) :
    Reads (readLevels levels) tree.bytes tree.seen := by
  cases levels with
  | zero => exact absurd (List.length_eq_zero_iff.mp (Nat.le_zero.mp enough)) tree.bytes_ne_nil
  | succ levels => exact reads levels enough

theorem reads_levels (tree : Tree) (small : tree.bytes.length < 2 ^ 64) :
    ∀ levels, tree.bytes.length ≤ levels + 1 → Reads (readLevels (levels + 1)) tree.bytes tree.seen := by
  have headed (major : Major) (value : Nat) : 1 ≤ (headBytes major value).length :=
    List.length_pos_iff.mpr (headBytes_ne_nil _ _)
  -- the bytes of a part are fewer than those of the whole, by the head in front of them
  induction tree using Tree.induction with
  | uint value =>
    intro levels _
    refine reads_scalar value.toNat_lt ?_
    rw [UInt64.ofNat_toNat]
    rfl
  | negint value =>
    intro levels _
    unfold Tree.seen
    refine reads_scalar value.toNat_lt ?_
    rw [UInt64.ofNat_toNat, ← negint_seen]
    rfl
  | bstr data =>
    intro levels _
    unfold Tree.bytes at small ⊢
    rw [List.length_append] at small
    have short : data.length < 2 ^ 64 := by omega
    refine reads_level short ?_
    simp only [decodeItem, toNat_ofNat short, bind_assoc, pure_bind]
    exact (reads_decString data).map Tree.bstr
  | tstr data =>
    intro levels _
    unfold Tree.bytes at small ⊢
    rw [List.length_append] at small
    have short : data.length < 2 ^ 64 := by omega
    refine reads_level short ?_
    simp only [decodeItem, toNat_ofNat short, bind_assoc, pure_bind]
    exact (reads_decString data).map Tree.tstr
  | array items each =>
    intro levels enough
    have head := headed .array items.length
    have few := Tree.length_le_bytesAll items
    unfold Tree.bytes at enough small
    rw [List.length_append] at enough small
    refine reads_array (by omega) fun item inside => ?_
    have part := Tree.mem_bytesAll inside
    exact reads_inner (by omega) (each item inside (by omega))
  | map pairs each =>
    intro levels enough
    have head := headed .map pairs.length
    have few := Tree.length_le_bytesAll (Tree.flat pairs)
    unfold Tree.bytes at enough small
    rw [List.length_append, Tree.bytesPairs_eq] at enough small
    rw [Tree.length_flat] at few
    refine reads_map (by omega) fun item inside => ?_
    have part := Tree.mem_bytesAll inside
    exact reads_inner (by omega) (each item inside (by omega))
  | tag number item whole =>
    intro levels enough
    have head := headed .tag number.toNat
    unfold Tree.bytes at enough small ⊢
    rw [List.length_append] at enough small
    refine reads_level number.toNat_lt ?_
    rw [UInt64.ofNat_toNat]
    exact (reads_inner (by omega) (whole (by omega))).map (Tree.tag number)
  | simple value =>
    intro levels _
    exact reads_simple value levels

/-- The value is written into a buffer of the given size, and read back from it, whatever
follows, up to exactly where the writing ended. -/
def RoundTrips (tree : Tree) (capacity : Nat) : Prop :=
  ∃ enc, encodeTree tree (.init capacity) = (.ok (), enc) ∧ enc.error = false ∧ ∀ rest,
    readTree (.init (enc.buf ++ rest)) = (.ok tree, (Decoder.init (enc.buf ++ rest)).advance enc.buf.length)

theorem encodeTree_init {tree : Tree} {capacity : Nat} (shallow : tree.nesting ≤ maxDepth) (sized : capacity ≤ countMax)
    (enough : tree.bytes.length ≤ capacity) :
    encodeTree tree (.init capacity) = (.ok (), { buf := tree.bytes, capacity, error := false, stack := [] }) := by
  have ready : Ready (.init capacity) := ⟨rfl, Nat.zero_le _⟩
  have room : (Encoder.init capacity).buf.length + tree.bytes.length ≤ capacity := by
    rw [Encoder.init, List.length_nil]
    omega
  have deep : (Encoder.init capacity).stack.length + tree.nesting ≤ maxDepth := by
    rw [Encoder.init, List.length_nil]
    omega
  rw [encodeTree_fits tree (.init capacity) ready sized room deep]
  rfl

theorem readTree_bytes {tree : Tree} (small : tree.bytes.length < 2 ^ 64) (rest : Bytes) :
    readTree (.init (tree.bytes ++ rest)) =
    (.ok tree.seen, (Decoder.init (tree.bytes ++ rest)).advance tree.bytes.length) := by
  have reads : Reads (readLevels (tree.bytes ++ rest).length) tree.bytes tree.seen := by
    refine reads_inner ?_ (reads_levels tree small)
    rw [List.length_append]
    omega
  unfold readTree
  rw [Proc.bind_of_ok (Proc.get_apply _)]
  exact reads (.init (tree.bytes ++ rest)) rest rfl rfl

theorem roundTrips_iff_seen {tree : Tree} {capacity : UInt64} (shallow : tree.nesting ≤ maxDepth)
    (enough : tree.bytes.length ≤ capacity.toNat) : RoundTrips tree capacity.toNat ↔ tree.seen = tree := by
  have sized : capacity.toNat < 2 ^ 64 := capacity.toNat_lt
  have written := encodeTree_init shallow (Nat.le_pred_of_lt sized) enough
  have read := readTree_bytes (Nat.lt_of_le_of_lt enough sized)
  constructor
  · intro trips
    obtain ⟨enc, same, -, reads⟩ := trips
    rw [written] at same
    cases same
    have both := (read []).symm.trans (reads [])
    exact Except.ok.inj (congrArg Prod.fst both)
  · intro same
    refine ⟨_, written, rfl, fun rest => ?_⟩
    rw [read rest, same]

/-- A value comes back as it was written exactly if none of its negative integers is
below the smallest signed one. -/
theorem tree_round_trip_iff (tree : Tree) (capacity : UInt64) (shallow : tree.nesting ≤ maxDepth)
    (enough : tree.bytes.length ≤ capacity.toNat) : RoundTrips tree capacity.toNat ↔ tree.inRange = true := by
  rw [roundTrips_iff_seen shallow enough, tree.seen_eq_iff]

/-- A map of a tagged list to the smallest signed integer, and of a text to nothing. -/
def plainTree : Tree :=
  .map [(.tag 32 (.array [.uint 24, .bstr [1, 2, 3]]), .negint 0x7FFFFFFFFFFFFFFF), (.tstr [0x61], .simple ⟨22, rfl⟩)]

theorem tree_round_trip_plain : RoundTrips plainTree (64 : UInt64).toNat :=
  (tree_round_trip_iff plainTree 64 (by decide +kernel) (by decide +kernel)).mpr (by decide +kernel)

/-- The integer `-2 ^ 63 - 1`, which is read as `-2 ^ 63`. -/
def lowTree : Tree := .negint 0x8000000000000000

theorem low_tree_lost : lowTree.nesting ≤ maxDepth ∧ lowTree.bytes.length ≤ (64 : UInt64).toNat ∧
    ¬ RoundTrips lowTree (64 : UInt64).toNat := by
  have shallow : lowTree.nesting ≤ maxDepth := by decide
  have enough : lowTree.bytes.length ≤ (64 : UInt64).toNat := by decide
  refine ⟨shallow, enough, fun trips => ?_⟩
  have same := (roundTrips_iff_seen shallow enough).mp trips
  exact absurd (lowTree.seen_eq_iff.mp same) (by decide)

end Hiya.Cbor
