import Mathlib.Data.List.Nodup
import Mathlib.Data.List.Perm.Basic
import Mathlib.Data.List.Perm.Subperm
import Mathlib.Logic.Relation
import Mathlib.Order.Basic
import Mathlib.Tactic.Common
import Mathlib.Data.Finset.Card

/-! Walks in depth through a graph that enter every point once. A walk goes through a list of
points, and behind each point it enters through the list of its children. Where it comes to a
point that it has entered before, it leaves a gap. -/

namespace Hiya.Library
variable {α : Type}

/-- Trees side by side: a point, what hangs below it, and what stands beside it. -/
inductive Forest (α : Type)
  | nil
  | node (point : α) (below rest : Forest α)

def Forest.points : Forest α → List α
  | nil => []
  | node point below rest => point :: (below.points ++ rest.points)

/-- What a walk makes of a list of points: for each of them a gap, or the point with what the walk
makes of its children. -/
inductive Slots (α : Type)
  | nil
  | gap (rest : Slots α)
  | node (point : α) (below rest : Slots α)

namespace Slots

def append : Slots α → Slots α → Slots α
  | nil, others => others
  | gap rest, others => gap (rest.append others)
  | node point below rest, others => node point below (rest.append others)

/-- How many places there are, gaps or not. -/
def size : Slots α → Nat
  | nil => 0
  | gap rest => rest.size + 1
  | node _ _ rest => rest.size + 1

def heads : Slots α → List α
  | nil => []
  | gap rest => rest.heads
  | node point _ rest => point :: rest.heads

/-- The points at all depths, with what is below them. -/
def nodes : Slots α → List (α × Slots α)
  | nil => []
  | gap rest => rest.nodes
  | node point below rest => (point, below) :: (below.nodes ++ rest.nodes)

def points (slots : Slots α) : List α := slots.nodes.map Prod.fst

/-- Every point at any depth, behind the point it hangs below. -/
def edges (above : Option α) : Slots α → List (Option α × α)
  | nil => []
  | gap rest => rest.edges above
  | node point below rest => (above, point) :: (below.edges (some point) ++ rest.edges above)

def forest : Slots α → Forest α
  | nil => .nil
  | gap rest => rest.forest
  | node point below rest => .node point below.forest rest.forest

def Full (slots : Slots α) : Prop := slots.heads.length = slots.size

/-- There is no gap at any depth, but for one that is the only place below its point. -/
inductive Solid : Slots α → Prop
  | nil : Solid .nil
  | lone (others : Solid rest) : Solid (.node point (.gap .nil) rest)
  | node (inner : Solid below) (others : Solid rest) : Solid (.node point below rest)

variable {slots others below : Slots α} {point child : α} {above : Option α}

@[simp] theorem size_append : (slots.append others).size = slots.size + others.size := by
  induction slots with
  | nil => simp [append, size]
  | gap rest ih => simp [append, size, ih, Nat.add_right_comm]
  | node point below rest _ ih => simp [append, size, ih, Nat.add_right_comm]

@[simp] theorem heads_append : (slots.append others).heads = slots.heads ++ others.heads := by
  induction slots with
  | nil => simp [append, heads]
  | gap rest ih => simp [append, heads, ih]
  | node point below rest _ ih => simp [append, heads, ih]

@[simp] theorem points_nil : (nil : Slots α).points = [] := rfl

@[simp] theorem points_gap : (gap slots).points = slots.points := rfl

@[simp] theorem points_node : (node point below slots).points = point :: (below.points ++ slots.points) := by
  simp [points, nodes]

theorem points_forest : slots.forest.points = slots.points := by
  induction slots with
  | nil => rfl
  | gap rest ih => simp [forest, ih]
  | node point below rest inner ih => simp [forest, Forest.points, inner, ih]

theorem map_edges : (slots.edges above).map Prod.snd = slots.points := by
  induction slots generalizing above with
  | nil => rfl
  | gap rest ih => simp [edges, ih]
  | node point below rest inner ih => simp [edges, inner, ih]

/-- A point hangs below nothing that the walk entered, or below such a point. -/
theorem mem_edges {parent : Option α} : (parent, child) ∈ slots.edges above ↔
    (parent = above ∧ child ∈ slots.heads) ∨ ∃ point below, parent = some point ∧ (point, below) ∈ slots.nodes ∧
    child ∈ below.heads := by
  induction slots generalizing above with
  | nil => simp [edges, heads, nodes]
  | gap rest ih => simp only [edges, heads, nodes, ih]
  | node entered inside rest inner ih =>
    simp only [edges, heads, nodes, List.mem_cons, List.mem_append, inner, ih, Prod.mk.injEq]
    constructor
    · rintro (⟨rfl, rfl⟩ | (⟨rfl, here⟩ | ⟨point, below, rfl, deep, here⟩) | ⟨rfl, here⟩ | ⟨point, below, rfl, deep, here⟩)
      · exact .inl ⟨rfl, .inl rfl⟩
      · exact .inr ⟨_, _, rfl, .inl ⟨rfl, rfl⟩, here⟩
      · exact .inr ⟨_, _, rfl, .inr (.inl deep), here⟩
      · exact .inl ⟨rfl, .inr here⟩
      · exact .inr ⟨_, _, rfl, .inr (.inr deep), here⟩
    · rintro (⟨rfl, rfl | here⟩ | ⟨point, below, rfl, ⟨rfl, rfl⟩ | deep | deep, here⟩)
      · exact .inl ⟨rfl, rfl⟩
      · exact .inr (.inr (.inl ⟨rfl, here⟩))
      · exact .inr (.inl (.inl ⟨rfl, here⟩))
      · exact .inr (.inl (.inr ⟨_, _, rfl, deep, here⟩))
      · exact .inr (.inr (.inr ⟨_, _, rfl, deep, here⟩))

theorem heads_length_le : slots.heads.length ≤ slots.size := by
  induction slots with
  | nil => simp [heads, size]
  | gap rest ih => simp only [heads, size]; omega
  | node point below rest _ ih => simp only [heads, size, List.length_cons]; omega

theorem full_append : (slots.append others).Full ↔ slots.Full ∧ others.Full := by
  have first := slots.heads_length_le
  have second := others.heads_length_le
  simp only [Full, heads_append, size_append, List.length_append]
  omega

@[simp] theorem full_gap : ¬ (gap slots).Full := by
  have few := slots.heads_length_le
  simp only [Full, heads, size]
  omega

@[simp] theorem full_node : (node point below slots).Full ↔ slots.Full := by simp [Full, heads, size]

/-- A gap may only be in a place that is the only one. -/
theorem solid_iff : slots.Solid ↔ slots.Full ∧ ∀ node ∈ slots.nodes, 2 ≤ node.2.size → node.2.Full := by
  have lonely (slots : Slots α) (small : ¬ 2 ≤ slots.size) (solid : slots.Full → slots.Solid) : slots = .gap .nil ∨
    slots.Solid := by
    cases slots with
    | nil => exact .inr .nil
    | gap rest =>
      cases rest with
      | nil => exact .inl rfl
      | gap _ => exact absurd small (by simp [size])
      | node _ _ _ => exact absurd small (by simp [size])
    | node point below rest =>
      cases rest with
      | nil => exact .inr (solid (by simp [Full, heads, size]))
      | gap _ => exact absurd small (by simp [size])
      | node _ _ _ => exact absurd small (by simp [size])
  induction slots with
  | nil => exact ⟨fun _ => ⟨rfl, by simp [nodes]⟩, fun _ => .nil⟩
  | gap rest _ => exact ⟨nofun, fun full => absurd full.1 full_gap⟩
  | node point below rest inner ih =>
    simp only [full_node, nodes, List.forall_mem_cons, List.forall_mem_append]
    constructor
    · intro solid
      cases solid with
      | lone others =>
        obtain ⟨full, deep⟩ := ih.mp others
        exact ⟨full, by simp [size], by simp [nodes], deep⟩
      | node within others =>
        obtain ⟨full, deep⟩ := ih.mp others
        obtain ⟨filled, deeper⟩ := inner.mp within
        exact ⟨full, fun _ => filled, deeper, deep⟩
    · rintro ⟨full, filled, deeper, deep⟩
      have others := ih.mpr ⟨full, deep⟩
      have solid (full : below.Full) : below.Solid := inner.mpr ⟨full, deeper⟩
      by_cases many : 2 ≤ below.size
      · exact .node (solid (filled many)) others
      · obtain rfl | solid := lonely below many solid
        · exact .lone others
        · exact .node solid others

end Slots

/-- A walk through a list of points, from the points that were entered before it to those that are
behind it. -/
inductive Visits (children : α → List α) : List α → List α → Slots α → List α → Prop
  | nil : Visits children seen [] .nil seen
  | again (old : point ∈ seen) (more : Visits children seen rest slots last) : Visits children seen (point :: rest)
    (.gap slots) last
  | enter (new : point ∉ seen) (inner : Visits children (point :: seen) (children point) below middle)
      (more : Visits children middle rest slots last) : Visits children seen (point :: rest) (.node point below slots) last

/-- A walk that passes over the points it has entered before. -/
inductive Sweeps (children : α → List α) : List α → List α → Slots α → List α → Prop
  | nil : Sweeps children seen [] .nil seen
  | skip (old : point ∈ seen) (more : Sweeps children seen rest slots last) : Sweeps children seen (point :: rest) slots last
  | enter (new : point ∉ seen) (inner : Visits children (point :: seen) (children point) below middle)
      (more : Sweeps children middle rest slots last) : Sweeps children seen (point :: rest) (.node point below slots) last

/-- Along children from one point to another. -/
def Reaches (children : α → List α) : α → α → Prop := Relation.ReflTransGen fun parent child => child ∈ children parent

/-- The children of points in the set are in it. -/
def Closed (children : α → List α) (seen : List α) : Prop := ∀ point ∈ seen, children point ⊆ seen

section
variable {children : α → List α} {seen middle last points : List α} {slots : Slots α}

theorem Closed.reaches {first second : α} (closed : Closed children seen) (reached : Reaches children first second)
    (inside : first ∈ seen) :
    second ∈ seen := by
  induction reached with
  | refl => exact inside
  | tail _ edge ih => exact closed _ ih edge

namespace Visits

theorem append {rest : List α} {others : Slots α} (first : Visits children seen points slots middle)
    (second : Visits children middle rest others last) : Visits children seen (points ++ rest)
    (slots.append others) last := by
  induction first with
  | nil => exact second
  | again old _ ih => exact .again old (ih second)
  | enter new inner _ _ ih => exact .enter new inner (ih second)

theorem perm (visits : Visits children seen points slots last) : last.Perm (slots.points ++ seen) := by
  induction visits with
  | nil => exact .refl _
  | again _ _ ih => exact ih
  | @enter seen point below middle rest slots last _ _ _ inner ih =>
    rw [Slots.points_node]
    calc
      last.Perm (slots.points ++ middle) := ih
      _ |>.Perm (slots.points ++ (below.points ++ point :: seen)) := inner.append_left _
      _ |>.Perm (below.points ++ (slots.points ++ point :: seen)) := List.perm_append_comm_assoc _ _ _
      _ |>.Perm (below.points ++ point :: (slots.points ++ seen)) := List.perm_middle.append_left _
      _ |>.Perm (point :: (below.points ++ (slots.points ++ seen))) := List.perm_middle
      _ = point :: (below.points ++ slots.points) ++ seen := by rw [List.cons_append, List.append_assoc]

/-- A walk through one point that is new enters it. -/
theorem single {point : α} (visits : Visits children seen [point] slots last) (new : point ∉ seen) :
    ∃ below, slots = .node point below .nil ∧ Visits children (point :: seen) (children point) below last := by
  cases visits with
  | again old _ => exact absurd old new
  | enter _ inner more =>
    cases more
    exact ⟨_, rfl, inner⟩

/-- The first place of a walk from the beginning is no gap. -/
theorem first_entered {rest : Slots α} (visits : Visits children [] points slots last) (gap : slots = .gap rest) : False := by
  cases visits with
  | nil => cases gap
  | again old _ => exact List.not_mem_nil old
  | enter => cases gap

theorem mem_iff (visits : Visits children seen points slots last) {point : α} : point ∈ last ↔ point ∈ slots.points ∨
    point ∈ seen := by
  rw [visits.perm.mem_iff, List.mem_append]

theorem keeps (visits : Visits children seen points slots last) : seen ⊆ last := fun _ old => visits.mem_iff.mpr (.inr old)

theorem nodup (visits : Visits children seen points slots last) (distinct : seen.Nodup) : last.Nodup := by
  induction visits with
  | nil => exact distinct
  | again _ _ ih => exact ih distinct
  | enter new _ _ inner ih => exact ih (inner (List.nodup_cons.mpr ⟨new, distinct⟩))

theorem points_nodup (visits : Visits children [] points slots last) : slots.points.Nodup := by
  have perm := visits.perm
  rw [List.append_nil] at perm
  exact perm.nodup_iff.mp (visits.nodup List.nodup_nil)

theorem covers (visits : Visits children seen points slots last) : points ⊆ last := by
  induction visits with
  | nil => exact List.nil_subset _
  | again old more ih => exact List.cons_subset.mpr ⟨more.keeps old, ih⟩
  | enter _ inner more _ ih => exact List.cons_subset.mpr ⟨more.keeps (inner.keeps List.mem_cons_self), ih⟩

theorem heads_sublist (visits : Visits children seen points slots last) : slots.heads.Sublist points := by
  induction visits with
  | nil => exact .slnil
  | again _ _ ih => exact ih.cons _
  | enter _ _ _ _ ih => exact ih.cons_cons _

theorem size_eq (visits : Visits children seen points slots last) : slots.size = points.length := by
  induction visits with
  | nil => rfl
  | again _ _ ih => simp [Slots.size, ih]
  | enter _ _ _ _ ih => simp [Slots.size, ih]

/-- Below every point stands what the walk through its children made of them. -/
theorem beneath (visits : Visits children seen points slots last) {point : α} {below : Slots α}
    (entered : (point, below) ∈ slots.nodes) :
    ∃ before after, Visits children before (children point) below after ∧ after ⊆ last := by
  induction visits with
  | nil => cases entered
  | again _ _ ih => exact ih entered
  | enter _ inner more deep ih =>
    rw [Slots.nodes, List.mem_cons, List.mem_append] at entered
    obtain here | inside | beside := entered
    · cases here
      exact ⟨_, _, inner, more.keeps⟩
    · obtain ⟨before, after, walk, kept⟩ := deep inside
      exact ⟨before, after, walk, List.Subset.trans kept more.keeps⟩
    · exact ih beside

theorem closed (visits : Visits children seen points slots last) (before : Closed children seen) : Closed children last := by
  intro point inside
  obtain entered | old := visits.mem_iff.mp inside
  · obtain ⟨⟨_, below⟩, node, rfl⟩ := List.mem_map.mp entered
    obtain ⟨_, _, walk, kept⟩ := visits.beneath node
    exact List.Subset.trans walk.covers kept
  · exact List.Subset.trans (before point old) visits.keeps

/-- Every point that is entered is reached from the list. -/
theorem reached (visits : Visits children seen points slots last) : ∀ point ∈ slots.points, ∃ start ∈ points,
    Reaches children start point := by
  induction visits with
  | nil => simp
  | again _ _ ih =>
    intro point inside
    obtain ⟨start, listed, reached⟩ := ih point inside
    exact ⟨start, List.mem_cons_of_mem _ listed, reached⟩
  | enter _ _ _ deep ih =>
    rw [Slots.points_node]
    refine List.forall_mem_cons.mpr ⟨⟨_, List.mem_cons_self, .refl⟩,
      List.forall_mem_append.mpr ⟨fun point inside => ?_, fun point inside => ?_⟩⟩
    · obtain ⟨start, child, reached⟩ := deep point inside
      exact ⟨_, List.mem_cons_self, .head child reached⟩
    · obtain ⟨start, listed, reached⟩ := ih point inside
      exact ⟨start, List.mem_cons_of_mem _ listed, reached⟩

theorem mem_iff_reaches (visits : Visits children seen points slots last) (before : Closed children seen) {point : α} :
    point ∈ last ↔ point ∈ seen ∨ ∃ start ∈ points, Reaches children start point := by
  constructor
  · intro inside
    obtain entered | old := visits.mem_iff.mp inside
    · exact .inr (visits.reached point entered)
    · exact .inl old
  · rintro (old | ⟨start, listed, reached⟩)
    · exact visits.keeps old
    · exact (visits.closed before).reaches reached (visits.covers listed)

/-- A walk that leaves no gap at its places has all points of the list there. -/
theorem heads_eq (visits : Visits children seen points slots last) (full : slots.Full) : slots.heads = points :=
  visits.heads_sublist.eq_of_length (full.trans visits.size_eq)

theorem exists_parent {child : α} (inside : child ∈ slots.points) : ∃ parent, (parent, child) ∈ slots.edges none := by
  rw [← Slots.map_edges, List.mem_map] at inside
  obtain ⟨⟨parent, _⟩, edge, rfl⟩ := inside
  exact ⟨parent, edge⟩

theorem parent_unique (visits : Visits children [] points slots last) {first second : Option α} {child : α}
    (one : (first, child) ∈ slots.edges none) (two : (second, child) ∈ slots.edges none) : first = second := by
  have distinct : ((slots.edges none).map Prod.snd).Nodup := Slots.map_edges ▸ visits.points_nodup
  exact congrArg Prod.fst (List.inj_on_of_nodup_map distinct one two rfl)

theorem below_unique (visits : Visits children [] points slots last) {point : α} {first second : Slots α}
    (one : (point, first) ∈ slots.nodes) (two : (point, second) ∈ slots.nodes) : first = second :=
  congrArg Prod.snd (List.inj_on_of_nodup_map visits.points_nodup one two rfl)

/-- A place of the list is no gap where nothing in front of it reaches its point. -/
theorem full_iff (visits : Visits children seen points slots last) (before : Closed children seen) :
    slots.Full ↔ (∀ point ∈ points, point ∉ seen) ∧ points.Pairwise fun first second => ¬ Reaches children first second := by
  induction visits with
  | nil => simp [Slots.Full, Slots.heads, Slots.size]
  | again old _ _ => exact ⟨fun full => absurd full Slots.full_gap, fun apart => absurd old (apart.1 _ List.mem_cons_self)⟩
  | @enter seen point below middle rest slots last new inner _ _ ih =>
    have one : Visits children seen [point] (.node point below .nil) middle := .enter new inner .nil
    have middles (other : α) : other ∉ middle ↔ other ∉ seen ∧ ¬ Reaches children point other := by
      simp [one.mem_iff_reaches before]
    rw [Slots.full_node, ih (one.closed before), List.forall_mem_cons, List.pairwise_cons]
    simp only [middles]
    exact ⟨fun ⟨apart, pairs⟩ => ⟨⟨new, fun other inside => (apart other inside).1⟩,
      fun other inside => (apart other inside).2, pairs⟩,
      fun ⟨⟨_, apart⟩, reach, pairs⟩ => ⟨fun other inside => ⟨apart other inside, reach other inside⟩, pairs⟩⟩

end Visits

namespace Sweeps

theorem visits (sweeps : Sweeps children seen points slots last) : Visits children seen slots.heads slots last := by
  induction sweeps with
  | nil => exact .nil
  | skip _ _ ih => exact ih
  | enter new inner _ ih => exact .enter new inner ih

theorem heads_sublist (sweeps : Sweeps children seen points slots last) : slots.heads.Sublist points := by
  induction sweeps with
  | nil => exact .slnil
  | skip _ _ ih => exact ih.cons _
  | enter _ _ _ ih => exact ih.cons_cons _

theorem covers (sweeps : Sweeps children seen points slots last) : points ⊆ last := by
  induction sweeps with
  | nil => exact List.nil_subset _
  | skip old more ih => exact List.cons_subset.mpr ⟨more.visits.keeps old, ih⟩
  | enter _ inner more ih => exact List.cons_subset.mpr ⟨more.visits.keeps (inner.keeps List.mem_cons_self), ih⟩

theorem full (sweeps : Sweeps children seen points slots last) : slots.Full := sweeps.visits.size_eq.symm

/-- In a sorted list a point is not passed over where no smaller one reaches it. -/
theorem mem_heads_iff [Preorder α] (sweeps : Sweeps children seen points slots last) (before : Closed children seen)
    (sorted : points.Pairwise (· < ·)) {point : α} :
    point ∈ slots.heads ↔ point ∈ points ∧ point ∉ seen ∧ ∀ other ∈ points, other < point →
    ¬ Reaches children other point := by
  induction sweeps with
  | nil => simp [Slots.heads]
  | @skip seen entered rest slots last old _ ih =>
    obtain ⟨_, sorted⟩ := List.pairwise_cons.mp sorted
    rw [ih before sorted]
    constructor
    · rintro ⟨listed, new, none⟩
      exact ⟨List.mem_cons_of_mem _ listed, new,
        List.forall_mem_cons.mpr ⟨fun _ reached => new (before.reaches reached old), none⟩⟩
    · rintro ⟨listed, new, none⟩
      obtain rfl | listed := List.mem_cons.mp listed
      · exact absurd old new
      · exact ⟨listed, new, (List.forall_mem_cons.mp none).2⟩
  | @enter seen entered below middle rest slots last unseen inner _ ih =>
    obtain ⟨behind, sorted⟩ := List.pairwise_cons.mp sorted
    have one : Visits children seen [entered] (.node entered below .nil) middle := .enter unseen inner .nil
    have middles : point ∉ middle ↔ point ∉ seen ∧ ¬ Reaches children entered point := by simp [one.mem_iff_reaches before]
    rw [Slots.heads, List.mem_cons, ih (one.closed before) sorted, middles]
    constructor
    · rintro (rfl | ⟨listed, ⟨new, apart⟩, none⟩)
      · refine ⟨List.mem_cons_self, unseen, List.forall_mem_cons.mpr ⟨fun less => absurd less (lt_irrefl _),
          fun other listed less => ?_⟩⟩
        exact absurd (behind other listed) (lt_asymm less)
      · exact ⟨List.mem_cons_of_mem _ listed, new, List.forall_mem_cons.mpr ⟨fun _ => apart, none⟩⟩
    · rintro ⟨listed, new, none⟩
      obtain rfl | listed := List.mem_cons.mp listed
      · exact .inl rfl
      · obtain ⟨apart, none⟩ := List.forall_mem_cons.mp none
        exact .inr ⟨listed, ⟨new, apart (behind _ listed)⟩, none⟩

end Sweeps

end

section
variable [Preorder α]

/-- All points of a graph in order, and some of them as its roots. Points that share a child
share all of them. -/
structure Graph (children : α → List α) (roots all : List α) : Prop where
  sorted : all.Pairwise (· < ·)
  roots : roots ⊆ all
  inside : ∀ point ∈ all, children point ⊆ all
  distinct : ∀ point ∈ all, (children point).Nodup
  alike : ∀ first ∈ all, ∀ second ∈ all, ∀ child ∈ children first, child ∈ children second → children first = children second

/-- No root hangs below one in front of it. Where several points have the same parent, it is their
only one, none of them is a root, and each of them hangs below a root or below a smaller point. -/
structure Unbroken (children : α → List α) (roots all : List α) : Prop where
  apart : roots.Pairwise fun first second => ¬ Reaches children first second
  alone : ∀ point ∈ all, 2 ≤ (children point).length → ∀ child ∈ children point, ∀ other ∈ all,
    child ∈ children other → other = point
  held : ∀ point ∈ all, 2 ≤ (children point).length → ∀ child ∈ children point, child ∉ roots ∧
    ((∃ root ∈ roots, Reaches children root child) ∨ ∃ other ∈ all, other < child ∧ Reaches children other child)

variable {children : α → List α} {roots all middle last : List α} {first second : Slots α}

/-- Every point is entered once, whatever the graph. -/
theorem Graph.points_perm (graph : Graph children roots all) (walk : Visits children [] roots first middle)
    (sweep : Sweeps children middle all second last) : (first.append second).points.Perm all := by
  have whole := walk.append sweep.visits
  have distinct : all.Nodup := graph.sorted.imp fun less => ne_of_lt less
  refine (List.perm_ext_iff_of_nodup whole.points_nodup distinct).mpr fun point => ⟨fun entered => ?_, fun listed => ?_⟩
  · obtain ⟨start, listed, reached⟩ := whole.reached point entered
    have inside : start ∈ all := (List.mem_append.mp listed).elim (graph.roots ·) (sweep.heads_sublist.subset ·)
    exact Closed.reaches graph.inside reached inside
  · exact (whole.mem_iff.mp (sweep.covers listed)).resolve_right List.not_mem_nil

theorem Graph.mem_heads_iff (graph : Graph children roots all) (walk : Visits children [] roots first middle)
    (sweep : Sweeps children middle all second last) {point : α} (listed : point ∈ all) :
    point ∉ second.heads ↔ (∃ root ∈ roots, Reaches children root point) ∨ ∃ other ∈ all, other < point ∧
    Reaches children other point := by
  have none : Closed children [] := fun _ => nofun
  rw [sweep.mem_heads_iff (walk.closed none) graph.sorted, walk.mem_iff_reaches none]
  simp only [listed, true_and, List.not_mem_nil, false_or, not_and, not_forall, not_not, exists_prop]
  exact or_iff_not_imp_left.symm

theorem Graph.unbroken_of_solid (graph : Graph children roots all) (walk : Visits children [] roots first middle)
    (sweep : Sweeps children middle all second last) (solid : (first.append second).Solid) : Unbroken children roots all := by
  have whole := walk.append sweep.visits
  obtain ⟨full, deep⟩ := Slots.solid_iff.mp solid
  have heads := whole.heads_eq full
  have apart := ((walk.full_iff fun _ => nofun).mp (Slots.full_append.mp full).1).2
  have hangs (point : α) (listed : point ∈ all) (many : 2 ≤ (children point).length) (child : α)
    (edge : child ∈ children point) :
      (some point, child) ∈ (first.append second).edges none := by
    obtain ⟨⟨_, below⟩, node, rfl⟩ := List.mem_map.mp ((graph.points_perm walk sweep).mem_iff.mpr listed)
    obtain ⟨_, _, inner, _⟩ := whole.beneath node
    have filled := deep _ node (inner.size_eq ▸ many)
    exact Slots.mem_edges.mpr (.inr ⟨_, below, rfl, node, inner.heads_eq filled ▸ edge⟩)
  have low (point : α) (listed : point ∈ all) (many : 2 ≤ (children point).length) (child : α)
    (edge : child ∈ children point) :
      child ∉ roots ++ second.heads := fun top =>
    Option.some_ne_none point (whole.parent_unique (hangs point listed many child edge)
      (Slots.mem_edges.mpr (.inl ⟨rfl, heads ▸ top⟩)))
  constructor
  · exact apart
  · intro point listed many child edge other among shared
    have same := graph.alike point listed other among child edge shared
    have again := hangs other among (same ▸ many) child shared
    exact Option.some.inj (whole.parent_unique again (hangs point listed many child edge))
  · intro point listed many child edge
    obtain ⟨noRoot, noHead⟩ := not_or.mp (mt List.mem_append.mpr (low point listed many child edge))
    exact ⟨noRoot, (graph.mem_heads_iff walk sweep (graph.inside point listed edge)).mp noHead⟩

theorem Graph.solid_of_unbroken (graph : Graph children roots all) (walk : Visits children [] roots first middle)
    (sweep : Sweeps children middle all second last) (unbroken : Unbroken children roots all) :
    (first.append second).Solid := by
  have whole := walk.append sweep.visits
  have perm := graph.points_perm walk sweep
  have rooted : first.Full := (walk.full_iff fun _ => nofun).mpr ⟨fun _ _ => List.not_mem_nil, unbroken.apart⟩
  refine Slots.solid_iff.mpr ⟨Slots.full_append.mpr ⟨rooted, sweep.full⟩, ?_⟩
  rintro ⟨point, below⟩ node several
  obtain ⟨before, after, inner, _⟩ := whole.beneath node
  have many : 2 ≤ (children point).length := inner.size_eq ▸ several
  have listed : point ∈ all := perm.mem_iff.mp (List.mem_map_of_mem node)
  -- Every child is entered somewhere, and there is no other place for it than below its parent.
  have here : children point ⊆ below.heads := by
    intro child edge
    have among := graph.inside point listed edge
    obtain ⟨noRoot, reached⟩ := unbroken.held point listed many child edge
    obtain ⟨parent, hung⟩ := Visits.exists_parent (perm.mem_iff.mpr among)
    obtain ⟨rfl, top⟩ | ⟨other, inside, rfl, entered, child_in⟩ := Slots.mem_edges.mp hung
    · obtain root | head := List.mem_append.mp (whole.heads_sublist.subset top)
      · exact absurd root noRoot
      · exact absurd head ((graph.mem_heads_iff walk sweep among).mpr reached)
    · obtain ⟨_, _, beneath, _⟩ := whole.beneath entered
      have otherListed : other ∈ all := perm.mem_iff.mp (List.mem_map_of_mem entered)
      obtain rfl := unbroken.alone point listed many child edge other otherListed (beneath.heads_sublist.subset child_in)
      rwa [whole.below_unique node entered]
  have long := ((graph.distinct point listed).subperm here).length_le
  have short := below.heads_length_le
  have size := inner.size_eq
  exact Nat.le_antisymm short (size ▸ long)

end

section
variable {α : Type} (link : α → Option α)

def chase : Nat → α → Option α
  | 0, start => some start
  | steps + 1, start => (link start).bind (chase steps)

variable {link} {start target : α}

theorem chase_add (first second : Nat) (start : α) : chase link (first + second) start =
    (chase link first start).bind (chase link second) := by
  induction first generalizing start with
  | zero =>
    rw [Nat.zero_add]
    rfl
  | succ first ih =>
    rw [Nat.succ_add]
    change (link start).bind (chase link (first + second)) = ((link start).bind (chase link first)).bind (chase link second)
    cases link start with
    | none => rfl
    | some next => exact ih next

/-- In front of the end of a walk every point has a link. -/
theorem chase_before {steps early : Nat} (arrives : chase link steps start = some target) (inside : early < steps) :
    ∃ point next, chase link early start = some point ∧ link point = some next := by
  obtain ⟨left, rfl⟩ := Nat.exists_eq_add_of_lt inside
  rw [Nat.add_assoc, chase_add] at arrives
  obtain ⟨point, here, there⟩ := Option.bind_eq_some_iff.mp arrives
  obtain ⟨next, linked, -⟩ := Option.bind_eq_some_iff.mp (show (link point).bind (chase link left) = some target from there)
  exact ⟨point, next, here, linked⟩

/-- Where a walk comes twice it can leave out the way between. -/
theorem chase_shortcut {steps one two : Nat} {point : α} (arrives : chase link steps start = some target)
    (inside : two < steps)
    (first : chase link one start = some point) (second : chase link two start = some point) :
    chase link (one + (steps - two)) start = some target := by
  have whole : steps = two + (steps - two) := by omega
  rw [whole, chase_add, second] at arrives
  rw [chase_add, first]
  exact arrives

theorem chase_within [DecidableEq α] {points : List α} (known : ∀ point next, link point = some next → point ∈ points)
    {steps : Nat}
    (arrives : chase link steps start = some target) : ∃ few ≤ points.length, chase link few start = some target := by
  induction steps using Nat.strongRecOn with
  | ind steps ih =>
    by_cases short : steps ≤ points.length
    · exact ⟨steps, short, arrives⟩
    have crowded : points.toFinset.card < (Finset.range steps).card := by
      have distinct := points.toFinset_card_le
      rw [Finset.card_range]
      omega
    have lands : ∀ early ∈ Finset.range steps, (chase link early start).getD start ∈ points.toFinset := by
      intro early inside
      obtain ⟨point, next, here, linked⟩ := chase_before arrives (Finset.mem_range.mp inside)
      rw [here]
      exact List.mem_toFinset.mpr (known point next linked)
    obtain ⟨one, inOne, two, inTwo, apart, same⟩ := Finset.exists_ne_map_eq_of_card_lt_of_maps_to crowded lands
    have inOne := Finset.mem_range.mp inOne
    have inTwo := Finset.mem_range.mp inTwo
    obtain ⟨first, _, hereOne, _⟩ := chase_before arrives inOne
    obtain ⟨second, _, hereTwo, _⟩ := chase_before arrives inTwo
    rw [hereOne, hereTwo] at same
    obtain rfl : first = second := same
    rcases Nat.lt_or_gt_of_ne apart with ordered | ordered
    · exact ih _ (by omega) (chase_shortcut arrives inTwo hereOne hereTwo)
    · exact ih _ (by omega) (chase_shortcut arrives inOne hereTwo hereOne)

end

end Hiya.Library
