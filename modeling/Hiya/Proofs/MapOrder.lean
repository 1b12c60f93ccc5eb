import Hiya.Proofs.CborPrefixes
import Hiya.Proofs.CborSizes

/-! The canonical order of a map. The sort puts descriptors in order and writes the pairs
anew, so the pairs of the grammar come out as they went in, however deep their items are. -/

namespace Hiya.Cbor
open Library Raw

theorem bytesAt_succ (data : Bytes) (place count : Nat) :
    bytesAt data place (count + 1) = data.getD place 0 :: bytesAt data (place + 1) count := rfl

theorem bytesAt_content {data content rest : Bytes} {place : Nat} (here : data.drop place = content ++ rest) :
    bytesAt data place content.length = content := by
  induction content generalizing place with
  | nil => rfl
  | cons byte content ih =>
    have there : data.drop (place + 1) = content ++ rest := by
      rw [← List.drop_drop, here]
      rfl
    have first : (data.drop place)[0]? = some byte := by
      rw [here]
      rfl
    rw [List.getElem?_drop, Nat.add_zero] at first
    rw [List.length_cons, bytesAt_succ, ih there, List.getD_eq_getElem?_getD, first]
    rfl

def pairBytes (data : Bytes) (pair : KvPair) : Bytes × Bytes :=
  (bytesAt data pair.keyData pair.keyLen, bytesAt data pair.valData pair.valLen)

/-- Pairs as they stand in the body of a map. -/
def mapBody (pairs : List (Bytes × Bytes)) : Bytes := pairs.flatMap fun pair => pair.1 ++ pair.2

theorem mapBody_cons (pair : Bytes × Bytes) (pairs : List (Bytes × Bytes)) :
    mapBody (pair :: pairs) = pair.1 ++ (pair.2 ++ mapBody pairs) := List.append_assoc ..

theorem mapBody_length {first second : List (Bytes × Bytes)} (same : first.Perm second) :
    (mapBody first).length = (mapBody second).length := (same.flatMap_right _).length_eq

theorem appendPairs_eq (data : Bytes) (pairs : List KvPair) (body : Bytes) :
    pairs.foldl (appendPair data) body = body ++ mapBody (pairs.map (pairBytes data)) := by
  induction pairs generalizing body with
  | nil => exact (List.append_nil body).symm
  | cons pair pairs ih =>
    rw [List.foldl_cons, ih, List.map_cons, mapBody_cons]
    unfold appendPair pairBytes
    simp only [List.append_assoc]

def KeyLe (first second : Bytes) : Prop := first.length < second.length ∨ first.length = second.length ∧ first ≤ second

namespace KeyLe
variable {first second third : Bytes}

theorem total (first second : Bytes) : KeyLe first second ∨ KeyLe second first := by
  rcases Nat.lt_trichotomy first.length second.length with shorter | same | longer
  · exact .inl (.inl shorter)
  · rcases List.le_total first second with before | after
    · exact .inl (.inr ⟨same, before⟩)
    · exact .inr (.inr ⟨same.symm, after⟩)
  · exact .inr (.inl longer)

theorem trans (one : KeyLe first second) (two : KeyLe second third) : KeyLe first third := by
  rcases one with shorter | ⟨same, before⟩
  · left
    rcases two with wider | ⟨equal, _⟩ <;> omega
  · rcases two with wider | ⟨equal, further⟩
    · left
      omega
    · exact .inr ⟨same.trans equal, List.le_trans before further⟩

theorem antisymm (one : KeyLe first second) (two : KeyLe second first) : first = second := by
  rcases one with shorter | ⟨same, before⟩
  · rcases two with wider | ⟨equal, _⟩ <;> omega
  · rcases two with wider | ⟨_, after⟩
    · omega
    · exact List.le_antisymm before after

end KeyLe

theorem bytesAt_length (data : Bytes) (place count : Nat) : (bytesAt data place count).length = count := by
  unfold bytesAt
  rw [List.length_map, List.length_range']

theorem memcmp_le (data : Bytes) (first second count : Nat) :
    memcmp data first second count ≤ 0 ↔ bytesAt data first count ≤ bytesAt data second count := by
  induction count generalizing first second with
  | zero => exact ⟨fun _ => List.le_refl _, fun _ => Int.le_refl 0⟩
  | succ count ih =>
    rw [bytesAt_succ, bytesAt_succ, List.cons_le_cons_iff]
    unfold memcmp
    generalize data.getD first 0 = one
    generalize data.getD second 0 = other
    by_cases same : one = other
    · subst same
      rw [if_pos rfl, ih]
      exact ⟨fun rest => .inr ⟨rfl, rest⟩, fun either => (either.resolve_left (UInt8.lt_irrefl one)).2⟩
    · have apart : one.toNat ≠ other.toNat := fun equal => same (UInt8.toNat_inj.mp equal)
      rw [if_neg same, UInt8.lt_iff_toNat_lt]
      constructor
      · intro below
        left
        omega
      · intro either
        have below := either.resolve_right fun equal => same equal.1
        omega

theorem compare_le (data : Bytes) (first second : KvPair) :
    ctap2KeyCompare data first second ≤ 0 ↔ KeyLe (pairBytes data first).1 (pairBytes data second).1 := by
  unfold ctap2KeyCompare KeyLe pairBytes
  dsimp only
  rw [bytesAt_length, bytesAt_length]
  rcases Nat.lt_trichotomy first.keyLen second.keyLen with shorter | same | longer
  · rw [if_pos shorter]
    exact ⟨fun _ => .inl shorter, fun _ => by decide⟩
  · rw [if_neg (by omega), if_neg (by omega), memcmp_le, ← same]
    exact ⟨fun before => .inr ⟨rfl, before⟩, fun either => (either.resolve_left (Nat.lt_irrefl _)).2⟩
  · rw [if_neg (by omega), if_pos longer]
    exact ⟨fun positive => absurd positive (by decide), fun either => by omega⟩

theorem comparison_keys (data : Bytes) : Comparison (ctap2KeyCompare data) :=
  .of_view (compare_le data) (fun _ _ => KeyLe.total _ _) fun _ _ _ => KeyLe.trans

def Measured (pairs : List (Bytes × Bytes)) : Prop :=
  ∀ pair ∈ pairs, Encodes (maxSizeDepth + 1) pair.1 ∧ Encodes (maxSizeDepth + 1) pair.2

section
variable {data : Bytes} {pos : Nat}

theorem size_item {item rest : Bytes} (small : data.length < 2 ^ 64) (here : data.drop pos = item ++ rest)
    (encodes : Encodes (maxSizeDepth + 1) item) : sizeAt data pos = .ok item.length := by
  have sized := itemEncodedSizeDepth_encodes encodes rest (by rw [← here, List.length_drop]; omega)
  rwa [← here, List.length_drop] at sized

theorem item_size {size : Nat} (found : sizeAt data pos = .ok size) :
    ∃ item rest, data.drop pos = item ++ rest ∧ Encodes (maxSizeDepth + 1) item ∧ size = item.length := by
  have sized := sizeAt_sized data pos
  rw [found] at sized
  obtain ⟨item, rest, here, encodes, rfl⟩ := sized
  exact ⟨item, rest, here, encodes, Nat.zero_add _⟩

theorem readPairs_ok {count last : Nat} {pairs : List KvPair} (read : readPairs data count pos = .ok (pairs, last)) :
    pairs.length = count ∧ Measured (pairs.map (pairBytes data)) ∧
    ∃ rest, data.drop pos = mapBody (pairs.map (pairBytes data)) ++ rest ∧
      last = pos + (mapBody (pairs.map (pairBytes data))).length := by
  induction count generalizing pos pairs with
  | zero =>
    cases read
    exact ⟨rfl, fun _ inside => absurd inside List.not_mem_nil, _, rfl, rfl⟩
  | succ count ih =>
    obtain ⟨keyLen, keySize, read⟩ := bind_eq_ok.mp read
    obtain ⟨valLen, valSize, read⟩ := bind_eq_ok.mp read
    obtain ⟨⟨others, behind⟩, later, made⟩ := bind_eq_ok.mp read
    cases made
    obtain ⟨key, afterKey, here, fineKey, rfl⟩ := item_size keySize
    obtain ⟨value, afterValue, there, fineValue, rfl⟩ := item_size valSize
    obtain ⟨counted, measured, rest, remaining, rfl⟩ := ih later
    have inside : pairBytes data ⟨pos, key.length, pos + key.length, value.length⟩ = (key, value) :=
      Prod.ext (bytesAt_content here) (bytesAt_content there)
    rw [← List.drop_drop, here, List.drop_left] at there
    rw [← List.drop_drop, ← List.drop_drop, here, List.drop_left, there, List.drop_left] at remaining
    rw [List.map_cons, inside, mapBody_cons]
    refine ⟨congrArg (· + 1) counted, ?_, rest, ?_, ?_⟩
    · intro pair member
      rcases List.mem_cons.mp member with rfl | member
      · exact ⟨fineKey, fineValue⟩
      · exact measured pair member
    · rw [here, there, remaining, List.append_assoc, List.append_assoc]
    · simp only [List.length_append]
      omega

theorem readPairs_measured {items : List (Bytes × Bytes)} {rest : Bytes} (small : data.length < 2 ^ 64)
    (measured : Measured items) (here : data.drop pos = mapBody items ++ rest) :
    ∃ pairs, readPairs data items.length pos = .ok (pairs, pos + (mapBody items).length) ∧
    pairs.map (pairBytes data) = items := by
  induction items generalizing pos with
  | nil => exact ⟨[], rfl, rfl⟩
  | cons item items ih =>
    obtain ⟨fineKey, fineValue⟩ := measured item List.mem_cons_self
    rw [mapBody_cons, List.append_assoc, List.append_assoc] at here
    have there : data.drop (pos + item.1.length) = item.2 ++ (mapBody items ++ rest) :=
      by rw [← List.drop_drop, here, List.drop_left]
    have behind : data.drop (pos + item.1.length + item.2.length) = mapBody items ++ rest :=
      by rw [← List.drop_drop, there, List.drop_left]
    obtain ⟨pairs, read, same⟩ := ih (fun pair inside => measured pair (List.mem_cons_of_mem _ inside)) behind
    refine ⟨⟨pos, item.1.length, pos + item.1.length, item.2.length⟩ :: pairs, ?_, ?_⟩
    · apply bind_eq_ok.mpr
      refine ⟨_, size_item small here fineKey,
        bind_eq_ok.mpr ⟨_, size_item small there fineValue, bind_eq_ok.mpr ⟨_, read, ?_⟩⟩⟩
      rw [mapBody_cons, List.length_append, List.length_append]
      simp only [Nat.add_assoc]
      rfl
    · rw [List.map_cons, same]
      exact congrArg (· :: items) (Prod.ext (bytesAt_content here) (bytesAt_content there))

end

theorem mapBody_unique {first second : List (Bytes × Bytes)} {rest more : Bytes}
    (some? : ∀ pair ∈ first, (∃ levels, Encodes levels pair.1) ∧ ∃ levels, Encodes levels pair.2) (measured : Measured second)
    (same : mapBody first ++ rest = mapBody second ++ more) (counted : first.length = second.length) : first = second ∧
    rest = more := by
  induction first generalizing second with
  | nil =>
    rw [List.length_eq_zero_iff.mp counted.symm] at same ⊢
    exact ⟨rfl, same⟩
  | cons pair first ih =>
    cases second with
    | nil => cases counted
    | cons other second =>
      rw [mapBody_cons, mapBody_cons, List.append_assoc, List.append_assoc, List.append_assoc, List.append_assoc] at same
      obtain ⟨⟨_, fineKey⟩, ⟨_, fineValue⟩⟩ := some? pair List.mem_cons_self
      obtain ⟨otherKey, otherValue⟩ := measured other List.mem_cons_self
      obtain ⟨keys, same⟩ := fineKey.leaves.same_front parted_token otherKey.leaves same
      obtain ⟨values, same⟩ := fineValue.leaves.same_front parted_token otherValue.leaves same
      obtain ⟨rfl, rfl⟩ := ih (fun pair inside => some? pair (List.mem_cons_of_mem _ inside))
        (fun pair inside => measured pair (List.mem_cons_of_mem _ inside)) same (Nat.succ.inj counted)
      exact ⟨congrArg (· :: first) (Prod.ext keys values), rfl⟩

/-- A map that stands in a buffer, with what comes behind it. -/
structure HoldsMap (item : Bytes → Prop) (data front : Bytes) (pairs : List (Bytes × Bytes)) (rest : Bytes) :
    Prop where
  head : ∃ first argument head, front = first :: argument ∧ IsHead first argument head ∧ head.major = .map ∧
    head.argument.toNat = pairs.length
  items : ∀ pair ∈ pairs, item pair.1 ∧ item pair.2
  parts : data = front ++ (mapBody pairs ++ rest)

namespace HoldsMap
variable {item : Bytes → Prop} {data front rest : Bytes} {pairs : List (Bytes × Bytes)}

theorem decoded (holds : HoldsMap item data front pairs rest) :
    decodeHeadRaw data data.length = .ok (some { size := front.length, major := .map, value := pairs.length }) := by
  obtain ⟨first, argument, head, rfl, isHead, major, counted⟩ := holds.head
  rw [holds.parts, List.cons_append, decodeHeadRaw_isHead isHead, major, counted]
  rfl

theorem nonempty (holds : HoldsMap item data front pairs rest) : data.length ≠ 0 := by
  obtain ⟨first, argument, head, rfl, -, -, -⟩ := holds.head
  rw [holds.parts]
  exact Nat.succ_ne_zero _

theorem behind (holds : HoldsMap item data front pairs rest) : data.drop front.length = mapBody pairs ++ rest := by
  rw [holds.parts, List.drop_left]

/-- The same map with its pairs in another order. -/
theorem reorder {other : List (Bytes × Bytes)} (holds : HoldsMap item data front pairs rest) (same : other.Perm pairs) :
    HoldsMap item (front ++ (mapBody other ++ rest)) front other rest where
  head := by
    obtain ⟨first, argument, head, made, isHead, major, counted⟩ := holds.head
    exact ⟨first, argument, head, made, isHead, major, counted.trans same.length_eq.symm⟩
  items pair inside := holds.items pair (same.mem_iff.mp inside)
  parts := rfl

end HoldsMap

section
variable (qsort : Sorter KvPair) (memory : SortMemory)

def sortRefusal (count : Nat) : Option SortProblem :=
  if count = 0 then none
  else if count > maxSortedPairs then some (.halt (.code .invalid))
  else if memory.pairs = false ∨ memory.body = false then some .noMem
  else none

theorem sortMap_measured {data front rest : Bytes} {pairs : List (Bytes × Bytes)} (small : data.length < 2 ^ 64)
    (holds : HoldsMap (Encodes (maxSizeDepth + 1)) data front pairs rest) :
    ∃ sorted, sorted.Perm pairs ∧ sorted.Pairwise (fun one other => KeyLe one.1 other.1) ∧ sortMapCtap2 qsort memory data =
      (sortRefusal memory pairs.length).elim (.ok (), front ++ (mapBody sorted ++ rest))
      fun problem => (.error problem, data) := by
  obtain ⟨descriptors, read, same⟩ := readPairs_measured small holds.items holds.behind
  have moved := qsort.perm (ctap2KeyCompare data) descriptors
  have long := mapBody_length (moved.map (pairBytes data))
  rw [same] at long
  refine ⟨(qsort.sort (ctap2KeyCompare data) descriptors).map (pairBytes data), ?_, ?_, ?_⟩
  · rw [← same]
    exact moved.map _
  · apply List.pairwise_map.mpr
    exact (qsort.ordered (comparison_keys data) descriptors).imp (compare_le data _ _).mp
  unfold sortMapCtap2 sortRefusal
  rw [if_neg holds.nonempty, holds.decoded]
  dsimp only
  rw [if_neg (fun other => other rfl), read]
  by_cases none : pairs.length = 0
  · rw [if_pos none, if_pos none]
    rw [List.length_eq_zero_iff.mp none] at long
    rw [List.length_eq_zero_iff.mp long, holds.parts, List.length_eq_zero_iff.mp none]
    rfl
  rw [if_neg none, if_neg none]
  by_cases many : pairs.length > maxSortedPairs
  · rw [if_pos many, if_pos many]
    rfl
  rw [if_neg many, if_neg many]
  cases memory with
  | mk one other =>
    cases one with
    | false => rfl
    | true =>
      cases other with
      | false => rfl
      | true =>
        have before : data.take front.length = front := by rw [holds.parts, List.take_left]
        have behind : data.drop (front.length + (mapBody pairs).length) = rest := by
          rw [← List.drop_drop, holds.behind, List.drop_left]
        dsimp only
        rw [if_neg nofun, if_neg nofun, if_neg (fun either => by cases either <;> contradiction), appendPairs_eq,
          List.nil_append,
          Nat.add_sub_cancel_left, ← long, List.take_length, long, before, behind, List.append_assoc]
        rfl

theorem sortMap_failed {data : Bytes} {problem : SortProblem} (failed : (sortMapCtap2 qsort memory data).1 = .error problem) :
    (sortMapCtap2 qsort memory data).2 = data := by
  unfold sortMapCtap2 at failed ⊢
  split
  · rfl
  next nonempty =>
    rw [if_neg nonempty] at failed
    split
    · rfl
    · rfl
    next head decoded =>
      rw [decoded] at failed
      dsimp only at failed
      split
      · rfl
      next isMap =>
        rw [if_neg isMap] at failed
        split
        · rfl
        next some? =>
          rw [if_neg some?] at failed
          split
          · rfl
          next few =>
            rw [if_neg few] at failed
            split
            · rfl
            next allocated =>
              rw [if_neg allocated] at failed
              split
              · rfl
              next pairs pos read =>
                rw [read] at failed
                dsimp only at failed
                split
                · rfl
                next body =>
                  rw [if_neg body] at failed
                  cases failed

/-- Only a map is sorted, and only one whose items could be measured. -/
theorem sortMap_ok {data : Bytes} (done : (sortMapCtap2 qsort memory data).1 = .ok ()) :
    ∃ front pairs rest, HoldsMap (Encodes (maxSizeDepth + 1)) data front pairs rest := by
  unfold sortMapCtap2 at done
  split at done
  · cases done
  obtain absent | ⟨first, argument, rest, head, rfl, isHead⟩ := decodeHeadRaw_cases data
  · rw [absent] at done
    cases done
  rw [decodeHeadRaw_isHead isHead] at done
  dsimp only at done
  split at done
  · cases done
  next isMap =>
    have isMap := Decidable.not_not.mp isMap
    split at done
    next none =>
      exact ⟨first :: argument, [], rest, ⟨first, argument, head, rfl, isHead, isMap, none⟩,
        fun _ inside => absurd inside List.not_mem_nil, rfl⟩
    split at done
    · cases done
    split at done
    · cases done
    split at done
    · cases done
    next pairs pos read =>
      obtain ⟨counted, measured, behind, here, -⟩ := readPairs_ok read
      rw [List.drop_succ_cons, List.drop_left] at here
      refine ⟨first :: argument, _, behind, ⟨first, argument, head, rfl, isHead, isMap, ?_⟩, measured, ?_⟩
      · rw [List.length_map, counted]
      · exact congrArg (fun tail => first :: (argument ++ tail)) here

/-- Two maps that one buffer shows are the same. -/
theorem HoldsMap.unique {levels : Nat} {data front rest front' rest' : Bytes} {pairs pairs' : List (Bytes × Bytes)}
    (one : HoldsMap (Encodes levels) data front pairs rest)
    (two : HoldsMap (Encodes (maxSizeDepth + 1)) data front' pairs' rest') :
    front = front' ∧ pairs = pairs' ∧ rest = rest' := by
  obtain ⟨first, argument, head, rfl, isHead, major, counted⟩ := one.head
  obtain ⟨first', argument', head', rfl, isHead', major', counted'⟩ := two.head
  have same := one.parts.symm.trans two.parts
  rw [List.cons_append, List.cons_append] at same
  obtain ⟨rfl, tails⟩ := List.cons.inj same
  obtain ⟨rfl, bodies, rfl⟩ := isHead.unique isHead' tails
  obtain ⟨pairs, rests⟩ := mapBody_unique (fun pair inside => ⟨⟨_, (one.items pair inside).1⟩,
    ⟨_, (one.items pair inside).2⟩⟩) two.items bodies
    (counted.symm.trans counted')
  exact ⟨rfl, pairs, rests⟩

/-- What the sort makes of a map. -/
structure SortedMap (levels : Nat) (front : Bytes) (pairs : List (Bytes × Bytes)) (rest before after : Bytes) : Prop where
  sorted : ∃ sorted, HoldsMap (Encodes levels) after front sorted rest ∧ sorted.Perm pairs ∧
    sorted.Pairwise fun one other => KeyLe one.1 other.1
  length : after.length = before.length
  /-- The order is settled where no key comes with two values. -/
  again : (∀ one ∈ pairs, ∀ other ∈ pairs, one.1 = other.1 → one = other) →
    ∀ later, (sortMapCtap2 qsort later after).2 = after

theorem map_sorted (data : Bytes) (small : data.length < 2 ^ 64) :
    (∀ problem, (sortMapCtap2 qsort memory data).1 = .error problem → (sortMapCtap2 qsort memory data).2 = data) ∧
    ∀ levels front pairs rest, HoldsMap (Encodes levels) data front pairs rest → (sortMapCtap2 qsort memory data).1 = .ok () →
      SortedMap qsort levels front pairs rest data (sortMapCtap2 qsort memory data).2 := by
  refine ⟨fun problem failed => sortMap_failed qsort memory failed, ?_⟩
  intro levels front pairs rest holds done
  obtain ⟨_, _, _, measured⟩ := sortMap_ok qsort memory done
  obtain ⟨rfl, rfl, rfl⟩ := holds.unique measured
  obtain ⟨sorted, same, ordered, result⟩ := sortMap_measured qsort memory small measured
  cases refused : sortRefusal memory pairs.length with
  | some problem =>
    rw [refused] at result
    rw [result] at done
    cases done
  | none =>
    rw [refused] at result
    rw [result]
    change SortedMap qsort levels front pairs rest data (front ++ (mapBody sorted ++ rest))
    have length : (front ++ (mapBody sorted ++ rest)).length = data.length := by
      rw [measured.parts]
      simp only [List.length_append, mapBody_length same]
    refine ⟨⟨sorted, holds.reorder same, same, ordered⟩, length, ?_⟩
    intro apart later
    obtain ⟨twice, still, order, result⟩ := sortMap_measured qsort later (by rw [length]; exact small) (measured.reorder same)
    have settled : twice = sorted := by
      apply List.Perm.eq_of_pairwise _ order ordered still
      intro one other inOne inOther before after
      exact apart one (same.mem_iff.mp (still.mem_iff.mp inOne)) other (same.mem_iff.mp inOther) (before.antisymm after)
    rw [result, settled]
    cases sortRefusal later sorted.length with
    | none => rfl
    | some problem => rfl

end

/-- The numbers 32 and 5 as keys, and a byte behind the map. -/
def unsortedMap : Bytes := [0xA2, 0x18, 0x20, 0x81, 0x01, 0x05, 0x02, 0x7F]

theorem encodes_of_size {item : Bytes} (whole : sizeAt item 0 = .ok item.length) : Encodes (maxSizeDepth + 1) item := by
  obtain ⟨found, rest, here, encodes, long⟩ := item_size whole
  rw [List.drop_zero] at here
  have none : rest = [] := by
    have parts := congrArg List.length here
    rw [List.length_append] at parts
    exact List.length_eq_zero_iff.mp (by omega)
  rw [none, List.append_nil] at here
  rw [here]
  exact encodes

theorem map_sorted_unsortedMap :
    SortedMap .stable (maxSizeDepth + 1) [0xA2] [([0x18, 0x20], [0x81, 0x01]), ([0x05], [0x02])] [0x7F] unsortedMap
      (sortMapCtap2 .stable ⟨true, true⟩ unsortedMap).2 := by
  apply (map_sorted .stable ⟨true, true⟩ unsortedMap (by decide)).2
  · refine ⟨⟨0xA2, [], ⟨.map, 2, 2⟩, rfl, ⟨rfl, rfl, rfl, rfl⟩, rfl, rfl⟩, ?_, rfl⟩
    intro pair inside
    rcases List.mem_cons.mp inside with rfl | inside
    · exact ⟨encodes_of_size (by decide), encodes_of_size (by decide)⟩
    · obtain rfl := List.mem_singleton.mp inside
      exact ⟨encodes_of_size (by decide), encodes_of_size (by decide)⟩
  · decide +kernel

example : sortMapCtap2 .stable ⟨true, true⟩ unsortedMap = (.ok (), [0xA2, 0x05, 0x02, 0x18, 0x20, 0x81, 0x01, 0x7F]) :=
    by decide +kernel

def rivalMap : Bytes := [0xA2, 0x01, 0x02, 0x01, 0x03]

theorem sorting_again_changes :
    ¬ ∀ (qsort : Sorter KvPair) (memory : SortMemory) (data : Bytes), data.length < 2 ^ 64 →
      (sortMapCtap2 qsort memory data).1 = .ok () →
      (sortMapCtap2 qsort memory (sortMapCtap2 qsort memory data).2).2 = (sortMapCtap2 qsort memory data).2 := by
  intro claimed
  have same := claimed .reversing ⟨true, true⟩ rivalMap (by decide) (by decide +kernel)
  revert same
  decide +kernel

end Hiya.Cbor
