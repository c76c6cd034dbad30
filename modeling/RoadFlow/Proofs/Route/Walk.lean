import Mathlib.Algebra.Order.Monoid.WithTop
import Mathlib.Algebra.Order.Ring.Defs
import Mathlib.Algebra.Order.Ring.Nat
import Mathlib.Data.List.Induction
import RoadFlow.Proofs.Network.Construction
import RoadFlow.Route.Cost

/-!
# Walks and their costs

A walk is any chain of edges, the same edge or node any number of times. Its cost is added up in the
order of travel, so that a sum may depend on that order. What searches need of these sums is stated
in steps: `CostOrder` says that they are ordered, `CostOrder.Growing` that an added edge keeps the
order and never makes a walk cheaper, and `CostOrder.Additive` that they stay finite too. Exact sums
of lengths that are not negative do all of it (`additive_exact`).
-/

namespace RoadFlow

/-- The edges lead from one node to another, in the order of travel. -/
inductive Network.Walk (net : Network) (source : NodeId) : NodeId → List EdgeId → Prop
  | stay : Walk net source source []
  | go {edges : List EdgeId} {e : EdgeId} {edge : Edge} :
      Walk net source edge.source edges → net.edge? e = some edge →
      Walk net source edge.target (edges ++ [e])

theorem Network.walk_concat {net : Network} {source v : NodeId} {edges : List EdgeId} {e : EdgeId} :
    net.Walk source v (edges ++ [e]) ↔
      ∃ edge, net.Walk source edge.source edges ∧ net.edge? e = some edge ∧ edge.target = v := by
  constructor
  · intro walk
    generalize all : edges ++ [e] = path at walk
    cases walk with
    | stay => simp at all
    | go walk found =>
      obtain ⟨rfl, same⟩ := List.append_inj' all rfl
      cases same
      exact ⟨_, walk, found, rfl⟩
  · rintro ⟨edge, walk, found, rfl⟩
    exact walk.go found

theorem Network.Walk.inside {net : Network} {source v : NodeId} {edges : List EdgeId}
    (h : net.Walk source v edges) (sound : net.Sound) (hs : source.index < net.nodeCount) :
    v.index < net.nodeCount := by
  cases h with
  | stay => exact hs
  | go _ he => exact sound.target_lt he

theorem Network.Walk.edge {net : Network} {source v : NodeId} {edges : List EdgeId} {e : EdgeId}
    (h : net.Walk source v edges) (he : e ∈ edges) : ∃ edge, net.edge? e = some edge := by
  induction h with
  | stay => cases he
  | @go _ last edge _ found ih =>
    rcases List.mem_append.mp he with earlier | here
    · exact ih earlier
    · rw [List.mem_singleton.mp here]
      exact ⟨edge, found⟩

namespace PathCost

variable {α : Type} [PathCost α]

/-- The first cost is no greater than the second. -/
def AtMost (a b : α) : Prop := lt b a = false

theorem atMost_of_not_lt {a b : α} (h : ¬ lt b a = true) : AtMost a b := by
  simpa [AtMost] using h

theorem same_iff {a b : α} : same a b = true ↔ AtMost b a ∧ AtMost a b := by
  simp [same, AtMost]

end PathCost

open PathCost

variable {α : Type} [PathCost α]

/-- The sum of some edges in the order of travel. -/
def walkCost (measure : EdgeId → α) (edges : List EdgeId) : α :=
  edges.foldl (fun cost e => cost + measure e) 0

@[simp] theorem walkCost_nil (measure : EdgeId → α) : walkCost measure [] = 0 := rfl

@[simp] theorem walkCost_concat (measure : EdgeId → α) (edges : List EdgeId) (e : EdgeId) :
    walkCost measure (edges ++ [e]) = walkCost measure edges + measure e := by
  simp [walkCost]

/-- A walk to the node has the cost. -/
def Network.Attains (net : Network) (measure : EdgeId → α) (source v : NodeId) (cost : α) : Prop :=
  ∃ edges, net.Walk source v edges ∧ walkCost measure edges = cost

/-- A cost of some walk to the node that no walk to it undercuts. -/
def Network.LeastCost (net : Network) (measure : EdgeId → α) (source v : NodeId) (cost : α) :
    Prop :=
  net.Attains measure source v cost ∧
    ∀ edges, net.Walk source v edges → AtMost cost (walkCost measure edges)

theorem Network.Attains.start (net : Network) (measure : EdgeId → α) (source : NodeId) :
    net.Attains measure source source 0 :=
  ⟨[], .stay, rfl⟩

theorem Network.Attains.go {net : Network} {measure : EdgeId → α} {source : NodeId} {cost : α}
    {e : EdgeId} {edge : Edge} (h : net.Attains measure source edge.source cost)
    (he : net.edge? e = some edge) : net.Attains measure source edge.target (cost + measure e) := by
  obtain ⟨edges, walk, rfl⟩ := h
  exact ⟨edges ++ [e], walk.go he, walkCost_concat ..⟩

/-! ## Laws -/

/-- A cost that a search can meet: that of a walk from its source, or the mark. -/
def Network.Met (net : Network) (measure : EdgeId → α) (source : NodeId) (cost : α) : Prop :=
  cost = unreached ∨ ∃ v, net.Attains measure source v cost

/-- The costs of walks are ordered, and the mark lies above them or among the highest. -/
structure CostOrder (net : Network) (measure : EdgeId → α) (source : NodeId) : Prop where
  irrefl : ∀ {a}, net.Met measure source a → lt a a = false
  trans : ∀ {a b c}, net.Met measure source a → net.Met measure source b →
    net.Met measure source c → lt a b = true → lt b c = true → lt a c = true
  antisymm : ∀ {a b}, net.Met measure source a → net.Met measure source b →
    AtMost a b → AtMost b a → a = b
  atMost_mark : ∀ {a}, net.Met measure source a → AtMost a unreached
  zero_finite : isFinite (0 : α) = true

/-- Sums that stay below the mark, never go down, and keep their order when an edge is added to
both. -/
structure CostOrder.Additive (net : Network) (measure : EdgeId → α) (source : NodeId) : Prop
    extends CostOrder net measure source where
  finite : ∀ {v a}, net.Attains measure source v a → isFinite a = true
  grows : ∀ {a e edge}, net.Attains measure source edge.source a → net.edge? e = some edge →
    AtMost a (a + measure e)
  mono : ∀ {a b e edge}, net.Attains measure source edge.source a →
    net.Attains measure source edge.source b → net.edge? e = some edge → AtMost a b →
    AtMost (a + measure e) (b + measure e)

/-- Sums that never go down and keep their order when an edge is added to both, though they may come
to the mark. -/
structure CostOrder.Growing (net : Network) (measure : EdgeId → α) (source : NodeId) : Prop
    extends CostOrder net measure source where
  grows : ∀ {a e edge}, net.Attains measure source edge.source a → net.edge? e = some edge →
    AtMost a (a + measure e)
  mono : ∀ {a b e edge}, net.Attains measure source edge.source a →
    net.Attains measure source edge.source b → net.edge? e = some edge → AtMost a b →
    AtMost (a + measure e) (b + measure e)

theorem CostOrder.Additive.growing {net : Network} {measure : EdgeId → α} {source : NodeId}
    (law : CostOrder.Additive net measure source) : CostOrder.Growing net measure source :=
  { law with }

theorem Network.Attains.met {net : Network} {measure : EdgeId → α} {source v : NodeId} {cost : α}
    (h : net.Attains measure source v cost) : net.Met measure source cost := .inr ⟨v, h⟩

theorem Network.met_mark (net : Network) (measure : EdgeId → α) (source : NodeId) :
    net.Met measure source unreached := .inl rfl

namespace CostOrder

variable {net : Network} {measure : EdgeId → α} {source : NodeId} {a b c : α}

theorem atMost_refl (law : CostOrder net measure source) (ha : net.Met measure source a) :
    AtMost a a := law.irrefl ha

theorem atMost_of_lt (law : CostOrder net measure source) (ha : net.Met measure source a)
    (hb : net.Met measure source b) (h : lt a b = true) : AtMost a b := by
  cases back : lt b a with
  | false => exact back
  | true =>
    have := law.irrefl ha
    rw [law.trans ha hb ha h back] at this
    cases this

theorem lt_of_atMost_of_ne (law : CostOrder net measure source) (ha : net.Met measure source a)
    (hb : net.Met measure source b) (h : AtMost a b) (different : a ≠ b) : lt a b = true := by
  cases ab : lt a b with
  | true => rfl
  | false => exact absurd (law.antisymm ha hb h ab) different

theorem lt_of_lt_of_atMost (law : CostOrder net measure source) (ha : net.Met measure source a)
    (hb : net.Met measure source b) (hc : net.Met measure source c) (hab : lt a b = true)
    (hbc : AtMost b c) : lt a c = true := by
  by_cases same : b = c
  · rwa [← same]
  · exact law.trans ha hb hc hab (law.lt_of_atMost_of_ne hb hc hbc same)

theorem lt_of_atMost_of_lt (law : CostOrder net measure source) (ha : net.Met measure source a)
    (hb : net.Met measure source b) (hc : net.Met measure source c) (hab : AtMost a b)
    (hbc : lt b c = true) : lt a c = true := by
  by_cases same : a = b
  · rwa [same]
  · exact law.trans ha hb hc (law.lt_of_atMost_of_ne ha hb hab same) hbc

theorem atMost_trans (law : CostOrder net measure source) (ha : net.Met measure source a)
    (hb : net.Met measure source b) (hc : net.Met measure source c) (hab : AtMost a b)
    (hbc : AtMost b c) : AtMost a c := by
  cases ca : lt c a with
  | false => exact ca
  | true =>
    have := law.lt_of_lt_of_atMost hc ha hb ca hab
    rw [show lt c b = false from hbc] at this
    cases this

theorem mark_not_finite (law : CostOrder net measure source) :
    isFinite (unreached : α) = false := law.irrefl (.inl rfl)

theorem leastCost_unique (law : CostOrder net measure source) {v : NodeId}
    (ha : net.LeastCost measure source v a) (hb : net.LeastCost measure source v b) : a = b := by
  obtain ⟨⟨as, walkA, rfl⟩, leastA⟩ := ha
  obtain ⟨⟨bs, walkB, rfl⟩, leastB⟩ := hb
  exact law.antisymm (Network.Attains.met ⟨as, walkA, rfl⟩) (Network.Attains.met ⟨bs, walkB, rfl⟩)
    (leastA bs walkB) (leastB as walkA)

end CostOrder

/-! ## Exact costs -/

section Exact

variable {κ : Type} [Semiring κ] [LinearOrder κ]

/-- Costs without rounding, with a mark above them all. -/
instance : PathCost (WithTop κ) where
  toZero := inferInstance
  toOne := inferInstance
  toAdd := inferInstance
  lt a b := decide (a < b)
  unreached := ⊤

theorem lt_exact {a b : WithTop κ} : PathCost.lt a b = true ↔ a < b := decide_eq_true_iff

theorem atMost_exact {a b : WithTop κ} : AtMost a b ↔ a ≤ b := by
  rw [AtMost, ← not_lt, ← lt_exact, Bool.not_eq_true]

theorem isFinite_exact {a : WithTop κ} : PathCost.isFinite a = true ↔ a ≠ ⊤ :=
  lt_exact.trans lt_top_iff_ne_top

theorem costOrder_exact (net : Network) (measure : EdgeId → WithTop κ) (source : NodeId) :
    CostOrder net measure source where
  irrefl _ := by simp [PathCost.lt]
  trans _ _ _ := by
    simp only [lt_exact]
    exact lt_trans
  antisymm _ _ := by
    simp only [atMost_exact]
    exact le_antisymm
  atMost_mark _ := atMost_exact.mpr le_top
  zero_finite := isFinite_exact.mpr WithTop.zero_ne_top

/-- Exact sums of lengths that are not negative obey all laws of costs. -/
theorem additive_exact [IsStrictOrderedRing κ] {net : Network} {measure : EdgeId → κ}
    (source : NodeId) (nonneg : ∀ {e edge}, net.edge? e = some edge → 0 ≤ measure e) :
    CostOrder.Additive net (fun e => (measure e : WithTop κ)) source where
  toCostOrder := costOrder_exact net _ source
  finite := by
    rintro v a ⟨edges, -, rfl⟩
    rw [isFinite_exact]
    induction edges using List.reverseRecOn with
    | nil => exact WithTop.zero_ne_top
    | append_singleton edges e ih =>
      rw [walkCost_concat]
      exact WithTop.add_ne_top.mpr ⟨ih, WithTop.coe_ne_top⟩
  grows _ he := by
    rw [atMost_exact]
    exact le_add_of_nonneg_right (WithTop.coe_nonneg.mpr (nonneg he))
  mono _ _ _ h := by
    rw [atMost_exact] at h ⊢
    exact add_le_add_left h _

theorem additive_one [IsStrictOrderedRing κ] (net : Network) (source : NodeId) :
    CostOrder.Additive net (fun _ => (1 : WithTop κ)) source :=
  additive_exact source fun _ => (zero_le_one : (0 : κ) ≤ 1)

end Exact

end RoadFlow
