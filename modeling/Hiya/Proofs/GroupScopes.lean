import Hiya.Library.Forest
import Hiya.Pm.EntryIterator
import Mathlib.Logic.Relation

/-! The scope of a group. The bound of the loops is one more than there are groups, so they
find every group above the entry's one, and a cycle of parents ends them. -/

namespace Hiya.Pm
open Library

variable (payload : Payload)

/-- The first group with an id has this parent. -/
def Parent (child parent : CStr) : Prop := (findGroupById payload child).map (·.parentId) = some parent

/-- To climb from parent to parent. An empty parent is the root, where the way ends. -/
inductive Ascends : CStr → CStr → Prop
  | parent {child parent : CStr} (linked : Parent payload child parent) : Ascends child parent
  | further {child parent target : CStr} (linked : Parent payload child parent) (named : parent ≠ .empty)
    (above : Ascends parent target) :
    Ascends child target

def parentLink (child : CStr) : Option CStr := if child = .empty then none else (findGroupById payload child).map (·.parentId)

variable {payload}

theorem ascends_iff {child target : CStr} :
    Ascends payload child target ↔ ∃ parent steps, Parent payload child parent ∧
    chase (parentLink payload) steps parent = some target := by
  constructor
  · intro ascends
    induction ascends with
    | @parent child parent linked => exact ⟨parent, 0, linked, rfl⟩
    | @further child parent target linked named above ih =>
      obtain ⟨next, steps, more, arrives⟩ := ih
      refine ⟨parent, steps + 1, linked, ?_⟩
      unfold chase parentLink
      rw [if_neg named, show (findGroupById payload parent).map (·.parentId) = some next from more]
      exact arrives
  · intro climbs
    obtain ⟨parent, steps, linked, arrives⟩ := climbs
    induction steps generalizing child parent with
    | zero =>
      obtain rfl : parent = target := Option.some.inj arrives
      exact .parent linked
    | succ steps ih =>
      unfold chase at arrives
      obtain ⟨next, more, later⟩ := Option.bind_eq_some_iff.mp arrives
      unfold parentLink at more
      split at more
      · cases more
      next named => exact .further linked named (ih next more later)

theorem climbGroups_iff {target : CStr} (depth : Nat) {child : CStr} :
    climbGroups payload target depth (findGroupById payload child) = true ↔
    ∃ parent steps, steps < depth ∧ Parent payload child parent ∧ chase (parentLink payload) steps parent = some target := by
  induction depth generalizing child with
  | zero =>
    refine iff_of_false (by cases findGroupById payload child <;> exact Bool.false_ne_true) fun found => ?_
    obtain ⟨parent, steps, few, -⟩ := found
    exact absurd few (Nat.not_lt_zero _)
  | succ depth ih =>
    have link {parent : CStr} : Parent payload child parent ↔
      (findGroupById payload child).map (·.parentId) = some parent := Iff.rfl
    cases found : findGroupById payload child with
    | none =>
      rw [found] at link
      refine iff_of_false Bool.false_ne_true fun climbs => ?_
      obtain ⟨parent, steps, -, linked, -⟩ := climbs
      cases link.mp linked
    | some group =>
      rw [found] at link
      unfold climbGroups
      by_cases here : group.parentId = target
      · rw [if_pos here]
        exact iff_of_true rfl ⟨group.parentId, 0, Nat.succ_pos _, link.mpr rfl, congrArg some here⟩
      rw [if_neg here]
      by_cases root : group.parentId = .empty
      · rw [if_pos root]
        refine iff_of_false Bool.false_ne_true fun climbs => ?_
        obtain ⟨parent, steps, -, linked, arrives⟩ := climbs
        obtain rfl : group.parentId = parent := Option.some.inj (link.mp linked)
        cases steps with
        | zero => exact here (Option.some.inj arrives)
        | succ steps =>
          unfold chase parentLink at arrives
          rw [if_pos root] at arrives
          cases arrives
      · rw [if_neg root, ih]
        have next {parent : CStr} : parentLink payload group.parentId = some parent ↔
          Parent payload group.parentId parent := by
          unfold parentLink Parent
          rw [if_neg root]
        constructor
        · intro climbs
          obtain ⟨parent, steps, few, linked, arrives⟩ := climbs
          refine ⟨group.parentId, steps + 1, Nat.succ_lt_succ few, link.mpr rfl, ?_⟩
          exact Option.bind_eq_some_iff.mpr ⟨parent, next.mpr linked, arrives⟩
        · intro climbs
          obtain ⟨parent, steps, few, linked, arrives⟩ := climbs
          obtain rfl : group.parentId = parent := Option.some.inj (link.mp linked)
          cases steps with
          | zero => exact absurd (Option.some.inj arrives) here
          | succ steps =>
            obtain ⟨parent, more, later⟩ := Option.bind_eq_some_iff.mp arrives
            exact ⟨parent, steps, Nat.lt_of_succ_lt_succ few, next.mp more, later⟩

theorem Parent.group {child parent : CStr} (linked : Parent payload child parent) : ∃ group ∈ payload.groups,
    group.id = child := by
  obtain ⟨group, found, -⟩ := Option.map_eq_some_iff.mp linked
  unfold findGroupById at found
  exact ⟨group, List.mem_of_find?_eq_some found, by simpa using List.find?_some found⟩

theorem parentLink_known (child parent : CStr) (linked : parentLink payload child = some parent) :
    child ∈ payload.groups.map (·.id) := by
  unfold parentLink at linked
  split at linked
  · cases linked
  exact List.mem_map.mpr (Parent.group linked)

/-- The bound is large enough for every way up. -/
theorem climbGroups_ascends {child target : CStr} :
    climbGroups payload target (payload.groups.length + 1) (findGroupById payload child) = true ↔
    Ascends payload child target := by
  rw [climbGroups_iff, ascends_iff]
  constructor
  · intro climbs
    obtain ⟨parent, steps, -, linked, arrives⟩ := climbs
    exact ⟨parent, steps, linked, arrives⟩
  · intro climbs
    obtain ⟨parent, steps, linked, arrives⟩ := climbs
    obtain ⟨few, short, arrives⟩ := chase_within parentLink_known arrives
    rw [List.length_map] at short
    exact ⟨parent, few, Nat.lt_succ_of_le short, linked, arrives⟩

/-- The index of the first group with an id leads to that group. -/
theorem findGroupIndex_eq {groupId : CStr} (named : groupId ≠ .empty) :
    (payloadFindGroupIndexById payload groupId).bind (payload.groups[·]?) = findGroupById payload groupId := by
  unfold payloadFindGroupIndexById findGroupById
  rw [if_neg named]
  induction payload.groups with
  | nil => rfl
  | cons group groups ih =>
    rw [List.findIdx?_cons, List.find?_cons]
    by_cases same : group.id = groupId
    · simp [same]
    · simp only [same, decide_false, Bool.false_eq_true, if_false]
      rw [← ih]
      cases groups.findIdx? (·.id = groupId) with
      | none => rfl
      | some index => rfl

theorem climbIndices_eq {scope : CStr} (some_scope : scope ≠ .empty) (depth : Nat) {child : CStr} (named : child ≠ .empty) :
    climbIndices payload scope depth (payloadFindGroupIndexById payload child) =
    climbGroups payload scope depth (findGroupById payload child) := by
  induction depth generalizing child with
  | zero => cases findGroupById payload child <;> rfl
  | succ depth ih =>
    unfold climbIndices
    rw [findGroupIndex_eq named]
    cases findGroupById payload child with
    | none => rfl
    | some group =>
      unfold climbGroups
      dsimp only
      by_cases root : group.parentId = .empty
      · rw [if_pos root, if_pos root, if_neg (fun same => some_scope (same.symm.trans root))]
      · rw [if_neg root, if_neg root, ih root]

/-- What is in the scope of a group. -/
theorem group_scope_ascends (payload : Payload) (entryGroupId targetGroupId : CStr) :
    (groupInScope payload entryGroupId targetGroupId true = true ↔
      targetGroupId = entryGroupId ∨ Ascends payload entryGroupId targetGroupId) ∧
    (entryGroupId ≠ .empty → targetGroupId ≠ .empty → ∀ includeDescendants,
      payloadEntryGroupMatchesScope payload entryGroupId targetGroupId includeDescendants =
        groupInScope payload entryGroupId targetGroupId includeDescendants) := by
  constructor
  · unfold groupInScope
    by_cases same : entryGroupId = targetGroupId
    · rw [if_pos same]
      exact iff_of_true rfl (.inl same.symm)
    · rw [if_neg same, if_neg (by decide), climbGroups_ascends]
      exact ⟨.inr, fun either => either.resolve_left fun equal => same equal.symm⟩
  · intro named some_target includeDescendants
    unfold payloadEntryGroupMatchesScope groupInScope
    rw [if_neg some_target, if_neg named, climbIndices_eq some_target _ named]

def groupA : CStr := ⟨[0x41], by decide, by decide⟩
def groupT : CStr := ⟨[0x54], by decide, by decide⟩

def plainGroup (id parentId : CStr) : Group where
  id := id
  parentId := parentId
  title := .empty
  iconId := .empty
  color := .empty
  notes := .empty
  createdAtMs := 0
  updatedAtMs := 0
  accessedAtMs := 0
  customDataCbor := []
  unknownFields := []

def rootedPayload : Payload := { payloadInit with groups := [plainGroup groupA .empty, plainGroup .empty groupT] }

/-- The empty parent is neither a link like the others, which leads on, nor no link at all. -/
theorem scope_ends_at_root :
    (¬ ∀ (payload : Payload) (entryGroupId targetGroupId : CStr),
      groupInScope payload entryGroupId targetGroupId true = true ↔
      Relation.ReflTransGen (Parent payload) entryGroupId targetGroupId) ∧
    ¬ ∀ (payload : Payload) (entryGroupId targetGroupId : CStr),
      groupInScope payload entryGroupId targetGroupId true = true ↔
        Relation.ReflTransGen (fun child parent => Parent payload child parent ∧
        parent ≠ .empty) entryGroupId targetGroupId := by
  constructor
  · intro claimed
    have within := (claimed rootedPayload groupA groupT).mpr (.head (show Parent rootedPayload groupA .empty from rfl)
      (.single rfl))
    exact absurd within (by decide)
  · intro claimed
    have reached := (claimed rootedPayload groupA .empty).mp (by decide)
    obtain same | ⟨before, -, linked⟩ := Relation.ReflTransGen.cases_tail reached
    · exact absurd same (by decide)
    · exact linked.2 rfl

end Hiya.Pm
