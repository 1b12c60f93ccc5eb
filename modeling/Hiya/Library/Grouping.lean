import Mathlib.Data.Finset.Card
import Mathlib.Data.List.Perm.Basic
import Mathlib.Data.List.Dedup

/-! Items that are grouped by a key: the keys that occur, collected up to a bound, and
the groups put back together. -/

namespace Hiya.Library

section
variable {α κ : Type} [DecidableEq κ] (key : α → κ)

def keysOf (items : List α) : Finset κ := (items.map key).toFinset

theorem mem_keysOf {items : List α} {k : κ} : k ∈ keysOf key items ↔ ∃ item ∈ items, key item = k := by
  unfold keysOf
  rw [List.mem_toFinset, List.mem_map]

/-- The keys in the order in which they first occur, as many as there is room for. -/
def firstKeys (room : Nat) (items : List α) : List κ :=
  items.foldl (fun seen item => if key item ∉ seen ∧ seen.length < room then seen ++ [key item] else seen) []

/-- What is seen is seen once, and nothing is missed while there is room for every key. -/
theorem firstKeys_from (room : Nat) (items : List α) : ∀ (before : List α) (seen : List κ), seen.Nodup →
    (∀ k, k ∈ seen ↔ k ∈ keysOf key before) → (keysOf key (before ++ items)).card ≤ room →
    (items.foldl (fun seen item => if key item ∉ seen ∧ seen.length < room then seen ++ [key item] else seen) seen).Nodup ∧
    ∀ k, k ∈ items.foldl (fun seen item => if key item ∉ seen ∧ seen.length < room then seen ++ [key item] else seen) seen ↔
      k ∈ keysOf key (before ++ items) := by
  induction items with
  | nil =>
    intro before seen nodup same _
    rw [List.append_nil]
    exact ⟨nodup, same⟩
  | cons item rest ih =>
    intro before seen nodup same small
    have shape : before ++ item :: rest = (before ++ [item]) ++ rest := by simp
    rw [shape] at small ⊢
    rw [List.foldl_cons]
    have grown (k : κ) : k ∈ keysOf key (before ++ [item]) ↔ k ∈ seen ∨ k = key item := by
      rw [same, mem_keysOf, mem_keysOf]
      simp [or_and_right, exists_or, eq_comm]
    by_cases known : key item ∈ seen
    · rw [if_neg fun new => new.1 known]
      refine ih (before ++ [item]) seen nodup (fun k => ?_) small
      rw [grown]
      constructor
      · exact .inl
      · rintro (old | rfl)
        · exact old
        · exact known
    · have space : seen.length < room := by
        -- the keys seen and the new one are all among those that fit
        have inside : insert (key item) seen.toFinset ⊆ keysOf key (before ++ [item] ++ rest) := by
          intro k inside
          have here : k ∈ keysOf key (before ++ [item]) := by
            rw [grown]
            rcases Finset.mem_insert.mp inside with rfl | old
            · exact .inr rfl
            · exact .inl (List.mem_toFinset.mp old)
          obtain ⟨source, found, rfl⟩ := (mem_keysOf key).mp here
          exact (mem_keysOf key).mpr ⟨source, List.mem_append_left _ found, rfl⟩
        have counted := Finset.card_le_card inside
        rw [Finset.card_insert_of_notMem (fun old => known (List.mem_toFinset.mp old)),
          List.toFinset_card_of_nodup nodup] at counted
        omega
      rw [if_pos ⟨known, space⟩]
      refine ih (before ++ [item]) (seen ++ [key item]) ?_ (fun k => ?_) small
      · exact List.nodup_append.mpr ⟨nodup, List.nodup_singleton _, fun old inside new last => by
          rw [List.mem_singleton.mp last]
          rintro rfl
          exact known inside⟩
      · rw [grown, List.mem_append, List.mem_singleton]

theorem mem_firstKeys {room : Nat} {items : List α} (small : (keysOf key items).card ≤ room) (k : κ) :
    k ∈ firstKeys key room items ↔ k ∈ keysOf key items :=
  (firstKeys_from key room items [] [] List.nodup_nil (fun _ => by simp [keysOf]) small).2 k

/-- One more item adds its key if that is new and there is room for it. -/
theorem firstKeys_concat (room : Nat) (items : List α) (item : α) : firstKeys key room (items ++ [item]) =
    if key item ∉ firstKeys key room items ∧ (firstKeys key room items).length < room then firstKeys key room items ++
    [key item]
    else firstKeys key room items := by
  unfold firstKeys
  rw [List.foldl_append]
  rfl

theorem mem_firstKeys_concat {room : Nat} {items : List α} {item : α} {k : κ} : k ∈ firstKeys key room (items ++ [item]) ↔
    k ∈ firstKeys key room items ∨ k = key item ∧ (firstKeys key room items).length < room := by
  rw [firstKeys_concat]
  split
  next new => rw [List.mem_append, List.mem_singleton, and_iff_left new.2]
  next kept =>
    constructor
    · exact .inl
    · rintro (old | ⟨rfl, space⟩)
      · exact old
      · exact not_not.mp fun missed => kept ⟨missed, space⟩

theorem firstKeys_of_map_eq {room : Nat} {items others : List α} (same : items.map key = others.map key) :
    firstKeys key room items = firstKeys key room others := by
  have shape (some : List α) : firstKeys key room some =
      (some.map key).foldl (fun seen k => if k ∉ seen ∧ seen.length < room then seen ++ [k] else seen) [] := by
    rw [List.foldl_map]
    rfl
  rw [shape items, shape others, same]

theorem mem_of_mem_firstKeys {room : Nat} {items : List α} {k : κ} (inside : k ∈ firstKeys key room items) :
    k ∈ items.map key := by
  induction items using List.reverseRecOn with
  | nil => cases inside
  | append_singleton items item ih =>
    rw [List.map_append, List.mem_append]
    rw [firstKeys_concat] at inside
    split at inside
    · obtain old | new := List.mem_append.mp inside
      · exact .inl (ih old)
      · exact .inr new
    · exact .inl (ih inside)

theorem nodup_firstKeys (room : Nat) (items : List α) : (firstKeys key room items).Nodup := by
  induction items using List.reverseRecOn with
  | nil => exact List.nodup_nil
  | append_singleton items item ih =>
    rw [firstKeys_concat]
    split
    next new =>
      apply List.nodup_append.mpr
      refine ⟨ih, List.nodup_singleton _, fun old inside last here => ?_⟩
      rintro rfl
      exact new.1 (List.mem_singleton.mp here ▸ inside)
    · exact ih

/-- A key is missed only when there is no room left. -/
theorem full_of_missed {room : Nat} {items : List α} {k : κ} (occurs : k ∈ items.map key)
    (missed : k ∉ firstKeys key room items) :
    room ≤ (firstKeys key room items).length := by
  induction items using List.reverseRecOn with
  | nil => cases occurs
  | append_singleton items item ih =>
    rw [firstKeys_concat] at missed ⊢
    rw [List.map_append, List.mem_append] at occurs
    split at missed
    · rw [List.mem_append, not_or] at missed
      exact absurd (occurs.resolve_right missed.2) fun old => by
        have full := ih old missed.1
        omega
    next kept =>
      rw [if_neg kept]
      obtain old | new := occurs
      · exact ih old missed
      · cases List.mem_singleton.mp new
        exact Nat.le_of_not_lt fun space => kept ⟨missed, space⟩

def groupOf (items : List α) (k : κ) : List α := items.filter fun item => key item = k

theorem length_groupOf (items : List α) (k : κ) : (groupOf key items k).length = (items.map key).count k := by
  unfold groupOf
  rw [List.count, List.countP_map, ← List.countP_eq_length_filter]
  rfl

/-- The groups of the keys, one after the other. -/
def regrouped (keys : List κ) (items : List α) : List α := keys.flatMap (groupOf key items)

/-- Nothing is lost and nothing comes twice when the keys that occur are listed once. -/
theorem regrouped_perm (keys : List κ) : ∀ items : List α, keys.Nodup → (∀ item ∈ items, key item ∈ keys) →
    (regrouped key keys items).Perm items := by
  induction keys with
  | nil =>
    intro items _ covered
    cases items with
    | nil => exact .refl _
    | cons item rest => exact absurd (covered item List.mem_cons_self) List.not_mem_nil
  | cons k rest ih =>
    intro items nodup covered
    obtain ⟨fresh, nodup⟩ := List.nodup_cons.mp nodup
    have others : regrouped key rest items = regrouped key rest (items.filter fun item => !decide (key item = k)) := by
      unfold regrouped groupOf
      apply List.flatMap_congr
      intro other inside
      rw [List.filter_filter]
      apply List.filter_congr
      intro item _
      by_cases same : key item = other
      · have different : ¬ other = k := by
          rintro rfl
          exact fresh inside
        simp [same, different]
      · simp [same]
    have step : (regrouped key rest (items.filter fun item => !decide (key item = k))).Perm
        (items.filter fun item => !decide (key item = k)) := by
      apply ih _ nodup
      intro item inside
      obtain ⟨inside, different⟩ := List.mem_filter.mp inside
      rcases List.mem_cons.mp (covered item inside) with same | later
      · simp [same] at different
      · exact later
    have split := List.filter_append_perm (fun item => decide (key item = k)) items
    unfold regrouped at others ⊢
    rw [List.flatMap_cons, others]
    exact (List.Perm.append_left _ step).trans split

theorem groupOf_regrouped_of_not_mem {k : κ} {keys : List κ} (items : List α) (absent : k ∉ keys) :
    groupOf key (regrouped key keys items) k = [] := by
  unfold groupOf regrouped
  rw [List.filter_eq_nil_iff]
  intro item inside same
  obtain ⟨source, listed, here⟩ := List.mem_flatMap.mp inside
  have found : key item = source := of_decide_eq_true (List.mem_filter.mp here).2
  rw [← of_decide_eq_true same, found] at absent
  exact absent listed

/-- A group is found again in the regrouped list as it was. -/
theorem groupOf_regrouped {k : κ} (keys : List κ) (items : List α) (nodup : keys.Nodup) (listed : k ∈ keys) :
    groupOf key (regrouped key keys items) k = groupOf key items k := by
  have own : groupOf key (groupOf key items k) k = groupOf key items k := by
    unfold groupOf
    rw [List.filter_filter]
    simp
  induction keys with
  | nil => cases listed
  | cons first rest ih =>
    obtain ⟨fresh, nodup⟩ := List.nodup_cons.mp nodup
    have shape : groupOf key (regrouped key (first :: rest) items) k =
        groupOf key (groupOf key items first) k ++ groupOf key (regrouped key rest items) k := by
      unfold regrouped
      rw [List.flatMap_cons]
      exact List.filter_append ..
    rw [shape]
    rcases List.mem_cons.mp listed with rfl | later
    · rw [own, groupOf_regrouped_of_not_mem key items fresh, List.append_nil]
    · have different : k ≠ first := by
        rintro rfl
        exact fresh later
      have none : groupOf key (groupOf key items first) k = [] := by
        unfold groupOf
        rw [List.filter_filter, List.filter_eq_nil_iff]
        intro item _ both
        obtain ⟨same, named⟩ := Bool.and_eq_true_iff.mp both
        exact different ((of_decide_eq_true same).symm.trans (of_decide_eq_true named))
      rw [none, List.nil_append]
      exact ih nodup later

theorem length_regrouped_le (keys : List κ) (items : List α) (nodup : keys.Nodup) : (regrouped key keys items).length ≤
    items.length := by
  have same : regrouped key keys items = regrouped key keys (items.filter fun item => key item ∈ keys) := by
    unfold regrouped groupOf
    apply List.flatMap_congr
    intro k listed
    rw [List.filter_filter]
    apply List.filter_congr
    intro item _
    by_cases here : key item = k
    · simp [here, listed]
    · simp [here]
  have listed : ∀ item ∈ items.filter (fun item => key item ∈ keys), key item ∈ keys :=
    fun item inside => of_decide_eq_true (List.mem_filter.mp inside).2
  rw [same, (regrouped_perm key keys _ nodup listed).length_eq]
  exact List.length_filter_le ..

/-- The first item of some kind is the same in the regrouped list, if all of that kind have
one key and that key is listed. -/
theorem find?_regrouped {p : α → Bool} {k : κ} (one : ∀ item, p item → key item = k) (keys : List κ) (items : List α)
    (nodup : keys.Nodup) :
    (regrouped key keys items).find? p = if k ∈ keys then items.find? p else none := by
  have within (some : List α) : some.find? p = (groupOf key some k).find? p := by
    unfold groupOf
    rw [List.find?_filter]
    congr 1
    funext item
    by_cases found : p item
    · simp [found, one item found]
    · simp [found]
  rw [within]
  split
  next listed => rw [groupOf_regrouped key keys items nodup listed, ← within]
  next absent =>
    rw [groupOf_regrouped_of_not_mem key items absent]
    rfl

end

section
variable {α β κ : Type} [DecidableEq κ] (pick : α → β) (key : β → κ)

/-- One pick for every key, the first that comes. -/
def firstPicks (items : List α) : List β :=
  items.foldl (fun seen item => if seen.any (fun old => key old = key (pick item)) then seen else seen ++ [pick item]) []

theorem firstPicks_from (items : List α) : ∀ seen : List β, (seen.map key).Nodup →
    let picked := items.foldl (fun seen item => if seen.any (fun old => key old = key (pick item)) then seen
    else seen ++ [pick item]) seen
    (picked.map key).Nodup ∧ ∀ k, k ∈ picked.map key ↔ k ∈ seen.map key ∨ ∃ item ∈ items, key (pick item) = k := by
  induction items with
  | nil =>
    intro seen nodup
    exact ⟨nodup, fun k => by simp⟩
  | cons item rest ih =>
    intro seen nodup
    have known : seen.any (fun old => key old = key (pick item)) = true ↔ key (pick item) ∈ seen.map key := by simp
    by_cases old : key (pick item) ∈ seen.map key
    · obtain ⟨distinct, all⟩ := ih seen nodup
      simp only [List.foldl_cons, known.mpr old, if_true]
      refine ⟨distinct, fun k => (all k).trans ?_⟩
      simp only [List.mem_cons, exists_eq_or_imp]
      constructor
      · rintro (before | later)
        · exact .inl before
        · exact .inr (.inr later)
      · rintro (before | rfl | later)
        · exact .inl before
        · exact .inl old
        · exact .inr later
    · have more : ((seen ++ [pick item]).map key).Nodup := by
        rw [List.map_append, List.nodup_append]
        refine ⟨nodup, List.nodup_singleton _, fun first inside second last => ?_⟩
        rintro rfl
        rw [List.map_singleton, List.mem_singleton] at last
        exact old (last ▸ inside)
      obtain ⟨distinct, all⟩ := ih (seen ++ [pick item]) more
      simp only [List.foldl_cons, Bool.not_eq_true _ ▸ mt known.mp old, Bool.false_eq_true, if_false]
      refine ⟨distinct, fun k => (all k).trans ?_⟩
      rw [List.map_append, List.map_singleton, List.mem_append, List.mem_singleton, List.exists_mem_cons_iff, or_assoc,
        @eq_comm _ k]

theorem nodup_firstPicks (items : List α) : ((firstPicks pick key items).map key).Nodup :=
  (firstPicks_from pick key items [] List.nodup_nil).1

theorem mem_firstPicks (items : List α) {k : κ} : k ∈ (firstPicks pick key items).map key ↔
    ∃ item ∈ items, key (pick item) = k := by
  rw [firstPicks, (firstPicks_from pick key items [] List.nodup_nil).2 k]
  simp

end

section
variable {σ α κ ν : Type} {step : σ → κ × ν → σ} {read : σ → α} {key : κ} {fields : List (κ × ν)}

/-- What only the fields of one key change is left alone where there are none of them. -/
theorem foldl_absent (other : ∀ state, ∀ field ∈ fields, field.1 ≠ key → read (step state field) = read state)
    (absent : key ∉ fields.map Prod.fst)
    (start : σ) : read (fields.foldl step start) = read start := by
  induction fields generalizing start with
  | nil => rfl
  | cons field rest ih =>
    rw [List.map_cons, List.mem_cons, not_or] at absent
    obtain ⟨different, absent⟩ := absent
    rw [List.foldl_cons, ih (fun state field inside => other state field (List.mem_cons_of_mem _ inside)) absent,
      other start field List.mem_cons_self (Ne.symm different)]

/-- Where there is one, it does to the start what it does to every state. -/
theorem foldl_present {value : ν} {change : α → α} (other : ∀ state, ∀ field ∈ fields, field.1 ≠ key →
    read (step state field) = read state)
    (own : ∀ state, read (step state (key, value)) = change (read state)) (once : (fields.map Prod.fst).Nodup)
    (present : (key, value) ∈ fields)
    (start : σ) : read (fields.foldl step start) = change (read start) := by
  induction fields generalizing start with
  | nil => exact absurd present List.not_mem_nil
  | cons field rest ih =>
    rw [List.map_cons, List.nodup_cons] at once
    obtain ⟨absent, once⟩ := once
    have later : ∀ state, ∀ field ∈ rest, field.1 ≠ key → read (step state field) = read state := fun state field inside =>
      other state field (List.mem_cons_of_mem _ inside)
    rw [List.foldl_cons]
    obtain rfl | inside := List.mem_cons.mp present
    · rw [foldl_absent later absent, own]
    · have different : field.1 ≠ key := fun same => absent (List.mem_map.mpr ⟨(key, value), inside, same.symm⟩)
      rw [ih later once inside, other start field List.mem_cons_self different]

end

end Hiya.Library
