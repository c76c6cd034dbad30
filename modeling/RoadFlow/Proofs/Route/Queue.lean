import Mathlib.Algebra.Order.Group.Multiset
import Mathlib.Tactic.Abel
import RoadFlow.Proofs.Route.Walk
import RoadFlow.Route.Frontier

/-!
# Priority queues

What a search relies on in its queue: it holds a multiset of entries and gives out one that no other
comes before. A leftist heap does so under any order of its entries (`Heap.queue_lawful`), and the
costs of walks order the entries of a frontier, with their nodes (`CostOrder.ranks`) or without
(`CostOrder.ranks_cheaper`). With their nodes, entries of which neither comes before the other are
the same, so that all queues give them out in one order (`Queue.Lawful.pop_together`).
-/

namespace RoadFlow

variable {κ σ : Type}

/-- `Holds` ties the states of a queue to the entries held, all of them legal. -/
structure Queue.Lawful (q : Queue κ σ) (legal : κ → Prop) (before : κ → κ → Bool)
    (Holds : σ → Multiset κ → Prop) : Prop where
  empty : Holds q.empty 0
  push : ∀ {s m x}, Holds s m → legal x → Holds (q.push x s) (x ::ₘ m)
  popNone : ∀ {s m}, Holds s m → q.popLeast? s = none → m = 0
  popSome : ∀ {s m x rest}, Holds s m → q.popLeast? s = some (x, rest) →
    ∃ others, m = x ::ₘ others ∧ Holds rest others ∧ ∀ y ∈ others, before y x = false

/-- An order of the legal entries, given by which of two comes before the other. -/
structure Ranks (legal : κ → Prop) (before : κ → κ → Bool) : Prop where
  asymm : ∀ {x y}, legal x → legal y → before x y = true → before y x = false
  trans : ∀ {x y z}, legal x → legal y → legal z → before y x = false → before z y = false →
    before z x = false

/-! ## Queues side by side -/

namespace Queue

variable {τ : Type} {q : Queue κ σ} {q' : Queue κ τ} {legal : κ → Prop} {before : κ → κ → Bool}
  {Holds : σ → Multiset κ → Prop} {Holds' : τ → Multiset κ → Prop} {s : σ} {s' : τ}
  {m : Multiset κ}

/-- Legal entries of which neither comes before the other are the same. -/
def Decisive (legal : κ → Prop) (before : κ → κ → Bool) : Prop :=
  ∀ {x y}, legal x → legal y → before x y = false → before y x = false → x = y

/-- When the order decides, queues that hold the same entries give out the same one and go on
holding the same. -/
theorem Lawful.pop_together (lawful : q.Lawful legal before Holds)
    (lawful' : q'.Lawful legal before Holds') (decisive : Decisive legal before)
    (holds : Holds s m) (holds' : Holds' s' m) (legals : ∀ x ∈ m, legal x) :
    q.popLeast? s = none ∧ q'.popLeast? s' = none ∧ m = 0 ∨
      ∃ x others rest rest', q.popLeast? s = some (x, rest) ∧ q'.popLeast? s' = some (x, rest') ∧
        m = x ::ₘ others ∧ Holds rest others ∧ Holds' rest' others ∧
        ∀ y ∈ others, before y x = false := by
  cases popped : q.popLeast? s with
  | none =>
    obtain rfl := lawful.popNone holds popped
    cases popped' : q'.popLeast? s' with
    | none => exact .inl ⟨rfl, rfl, rfl⟩
    | some least =>
      obtain ⟨others, same, -⟩ := lawful'.popSome holds' popped'
      exact absurd same Multiset.zero_ne_cons
  | some least =>
    obtain ⟨x, rest⟩ := least
    obtain ⟨others, rfl, held, least⟩ := lawful.popSome holds popped
    cases popped' : q'.popLeast? s' with
    | none => exact absurd (lawful'.popNone holds' popped') Multiset.cons_ne_zero
    | some least' =>
      obtain ⟨y, rest'⟩ := least'
      obtain ⟨others', same, held', least'⟩ := lawful'.popSome holds' popped'
      have single : x = y := by
        rcases Multiset.mem_cons.mp (same ▸ Multiset.mem_cons_self x others) with here | later
        · exact here
        · rcases Multiset.mem_cons.mp (same.symm ▸ Multiset.mem_cons_self y others') with
            here | later'
          · exact here.symm
          · exact decisive (legals x (Multiset.mem_cons_self x others))
              (legals y (Multiset.mem_cons_of_mem later')) (least' x later) (least y later')
      subst single
      obtain rfl := (Multiset.cons_inj_right x).mp same
      exact .inr ⟨x, others, rest, rest', rfl, rfl, rfl, held, held', least⟩

/-- Two queues that are given the same entries. -/
def both (q : Queue κ σ) (q' : Queue κ τ) : Queue κ (σ × τ) where
  empty := (q.empty, q'.empty)
  push x s := (q.push x s.1, q'.push x s.2)
  popLeast? s :=
    match q.popLeast? s.1, q'.popLeast? s.2 with
    | some (x, rest), some (_, rest') => some (x, (rest, rest'))
    | _, _ => none

/-- Both queues hold some legal entries. -/
def HoldsBoth (legal : κ → Prop) (Holds : σ → Multiset κ → Prop) (Holds' : τ → Multiset κ → Prop)
    (s : σ × τ) (m : Multiset κ) : Prop :=
  Holds s.1 m ∧ Holds' s.2 m ∧ ∀ x ∈ m, legal x

theorem both_lawful (lawful : q.Lawful legal before Holds)
    (lawful' : q'.Lawful legal before Holds') (decisive : Decisive legal before) :
    (q.both q').Lawful legal before (HoldsBoth legal Holds Holds') where
  empty := ⟨lawful.empty, lawful'.empty, by simp⟩
  push := by
    rintro s m x ⟨holds, holds', legals⟩ hx
    refine ⟨lawful.push holds hx, lawful'.push holds' hx, fun y hy => ?_⟩
    rcases Multiset.mem_cons.mp hy with rfl | old
    · exact hx
    · exact legals y old
  popNone := by
    rintro s m ⟨holds, holds', legals⟩ empty
    rcases lawful.pop_together lawful' decisive holds holds' legals with
      ⟨-, -, none⟩ | ⟨x, others, rest, rest', popped, popped', -⟩
    · exact none
    · simp [both, popped, popped'] at empty
  popSome := by
    rintro s m x rest ⟨holds, holds', legals⟩ found
    rcases lawful.pop_together lawful' decisive holds holds' legals with
      ⟨popped, -, -⟩ | ⟨y, others, r, r', popped, popped', rfl, held, held', least⟩
    · simp [both, popped] at found
    · simp only [both, popped, popped', Option.some.injEq, Prod.mk.injEq] at found
      obtain ⟨rfl, rfl⟩ := found
      exact ⟨others, rfl, ⟨held, held', fun z hz => legals z (Multiset.mem_cons_of_mem hz)⟩, least⟩

/-- A map from the states of one queue to those of another under which both give out the same. -/
structure Follows (q : Queue κ σ) (Holds : σ → Multiset κ → Prop) (q' : Queue κ τ) (f : σ → τ) :
    Prop where
  empty : f q.empty = q'.empty
  push : ∀ x s, f (q.push x s) = q'.push x (f s)
  pop : ∀ {s m}, Holds s m → q'.popLeast? (f s) = (q.popLeast? s).map (Prod.map id f)

theorem both_follows_left (lawful : q.Lawful legal before Holds)
    (lawful' : q'.Lawful legal before Holds') (decisive : Decisive legal before) :
    (q.both q').Follows (HoldsBoth legal Holds Holds') q Prod.fst where
  empty := rfl
  push _ _ := rfl
  pop := by
    rintro s m ⟨holds, holds', legals⟩
    rcases lawful.pop_together lawful' decisive holds holds' legals with
      ⟨popped, popped', -⟩ | ⟨x, others, rest, rest', popped, popped', -⟩ <;>
    simp [both, popped, popped']

theorem both_follows_right (lawful : q.Lawful legal before Holds)
    (lawful' : q'.Lawful legal before Holds') (decisive : Decisive legal before) :
    (q.both q').Follows (HoldsBoth legal Holds Holds') q' Prod.snd where
  empty := rfl
  push _ _ := rfl
  pop := by
    rintro s m ⟨holds, holds', legals⟩
    rcases lawful.pop_together lawful' decisive holds holds' legals with
      ⟨popped, popped', -⟩ | ⟨x, others, rest, rest', popped, popped', -⟩ <;>
    simp [both, popped, popped']

end Queue

namespace Heap

def entries : Heap κ → Multiset κ
  | leaf => 0
  | node _ x l r => x ::ₘ (l.entries + r.entries)

/-- No entry comes before one above it. -/
def Ordered (before : κ → κ → Bool) : Heap κ → Prop
  | leaf => True
  | node _ x l r =>
    (∀ y ∈ l.entries + r.entries, before y x = false) ∧ l.Ordered before ∧ r.Ordered before

variable {before : κ → κ → Bool} {legal : κ → Prop}

@[simp] theorem entries_join (x : κ) (a b : Heap κ) :
    (join x a b).entries = x ::ₘ (a.entries + b.entries) := by
  unfold join
  split
  · rfl
  · rw [entries, add_comm]

@[simp] theorem ordered_join (x : κ) (a b : Heap κ) :
    (join x a b).Ordered before ↔
      (∀ y ∈ a.entries + b.entries, before y x = false) ∧ a.Ordered before ∧ b.Ordered before := by
  unfold join
  split
  · rfl
  · rw [Ordered, add_comm, and_comm (a := b.Ordered before)]

@[simp] theorem entries_merge (a b : Heap κ) :
    (merge before a b).entries = a.entries + b.entries := by
  fun_induction merge before a b with
  | case1 => simp [entries]
  | case2 => simp [entries]
  | case3 d x l r e y m s first ih =>
    rw [entries_join, ih]
    simp only [entries, ← Multiset.singleton_add]
    abel
  | case4 d x l r e y m s first ih =>
    rw [entries_join, ih]
    simp only [entries, ← Multiset.singleton_add]
    abel

theorem ordered_merge (ranks : Ranks legal before) {a b : Heap κ} (ha : a.Ordered before)
    (hb : b.Ordered before) (legalA : ∀ x ∈ a.entries, legal x)
    (legalB : ∀ x ∈ b.entries, legal x) : (merge before a b).Ordered before := by
  fun_induction merge before a b with
  | case1 => exact hb
  | case2 => exact ha
  | case3 d x l r e y m s first ih =>
    have belowX := ha.1
    obtain ⟨belowY, orderedM, orderedS⟩ := hb
    have hx : legal x := legalA x (by simp [entries])
    have hy : legal y := legalB y (by simp [entries])
    have yx : before x y = false := ranks.asymm hy hx first
    rw [ordered_join, entries_merge]
    refine ⟨?_, orderedM, ih ha orderedS legalA fun z hz => legalB z (by simp [entries, hz])⟩
    intro z hz
    simp only [entries, Multiset.mem_add, Multiset.mem_cons] at hz
    rcases hz with hz | (rfl | hz) | hz
    · exact belowY z (by simp [hz])
    · exact yx
    · have hz' : z ∈ l.entries + r.entries := by simpa using hz
      exact ranks.trans hy hx (legalA z (by simp [entries, hz])) yx (belowX z hz')
    · exact belowY z (by simp [hz])
  | case4 d x l r e y m s first ih =>
    obtain ⟨belowX, orderedL, orderedR⟩ := ha
    have belowY := hb.1
    have hx : legal x := legalA x (by simp [entries])
    have hy : legal y := legalB y (by simp [entries])
    have xy : before y x = false := by simpa using first
    rw [ordered_join, entries_merge]
    refine ⟨?_, orderedL, ih orderedR hb (fun z hz => legalA z (by simp [entries, hz])) legalB⟩
    intro z hz
    simp only [entries, Multiset.mem_add, Multiset.mem_cons] at hz
    rcases hz with hz | hz | (rfl | hz)
    · exact belowX z (by simp [hz])
    · exact belowX z (by simp [hz])
    · exact xy
    · have hz' : z ∈ m.entries + s.entries := by simpa using hz
      exact ranks.trans hx hy (legalB z (by simp [entries, hz])) xy (belowY z hz')

/-- A heap in order with some legal entries. -/
def Holds (legal : κ → Prop) (before : κ → κ → Bool) (h : Heap κ) (m : Multiset κ) : Prop :=
  h.entries = m ∧ h.Ordered before ∧ ∀ x ∈ m, legal x

theorem queue_lawful (ranks : Ranks legal before) :
    (queue before).Lawful legal before (Holds legal before) where
  empty := ⟨rfl, trivial, by simp⟩
  push := by
    rintro h m x ⟨rfl, ordered, legals⟩ hx
    have single : (node 1 x leaf leaf).entries = {x} := rfl
    refine ⟨?_, ?_, ?_⟩
    · simp only [queue, Heap.push, entries_merge, single, Multiset.singleton_add]
    · apply ordered_merge ranks _ ordered _ legals
      · simp [Ordered, entries]
      · rw [single]
        intro y hy
        rwa [Multiset.mem_singleton.mp hy]
    · intro y hy
      rcases Multiset.mem_cons.mp hy with rfl | hy
      · exact hx
      · exact legals y hy
  popNone := by
    rintro h m ⟨rfl, _, _⟩ empty
    cases h with
    | leaf => rfl
    | node => cases empty
  popSome := by
    rintro h m x rest ⟨rfl, ordered, legals⟩ popped
    cases h with
    | leaf => cases popped
    | node d y l r =>
      cases popped
      obtain ⟨below, orderedL, orderedR⟩ := ordered
      have legalBelow : ∀ z ∈ l.entries + r.entries, legal z := fun z hz =>
        legals z (Multiset.mem_cons_of_mem hz)
      refine ⟨l.entries + r.entries, rfl, ⟨entries_merge l r, ?_, legalBelow⟩, below⟩
      apply ordered_merge ranks orderedL orderedR
      · exact fun z hz => legalBelow z (Multiset.mem_add.mpr (.inl hz))
      · exact fun z hz => legalBelow z (Multiset.mem_add.mpr (.inr hz))

end Heap

open PathCost

variable {α : Type} [PathCost α] {net : Network} {measure : EdgeId → α} {source : NodeId}

/-- A frontier holds nodes at costs of walks to them, below the mark. -/
def Reached.Legal (net : Network) (measure : EdgeId → α) (source : NodeId) (x : Reached α) : Prop :=
  net.Attains measure source x.node x.cost ∧ isFinite x.cost = true

theorem Reached.before_eq_false {x y : Reached α} :
    Reached.before y x = false ↔
      AtMost x.cost y.cost ∧ (lt x.cost y.cost = false → x.node.index ≤ y.node.index) := by
  simp only [Reached.before, Id.precedes, AtMost, Bool.or_eq_false_iff, Bool.and_eq_false_iff,
    Bool.not_eq_false', decide_eq_false_iff_not, Nat.not_lt]
  cases lt x.cost y.cost <;> simp

/-- By cost alone, entries of one cost in any order. -/
def Reached.cheaper (a b : Reached α) : Bool := lt a.cost b.cost

theorem CostOrder.ranks (law : CostOrder net measure source) :
    Ranks (Reached.Legal net measure source) Reached.before where
  asymm := by
    intro x y hx hy first
    have cx := hx.1.met
    have cy := hy.1.met
    rw [Reached.before_eq_false]
    simp only [Reached.before, Id.precedes, Bool.or_eq_true, Bool.and_eq_true, Bool.not_eq_true',
      decide_eq_true_eq] at first
    rcases first with cheaper | ⟨level, lower⟩
    · exact ⟨law.atMost_of_lt cx cy cheaper, fun h => by rw [h] at cheaper; cases cheaper⟩
    · exact ⟨level, fun _ => by omega⟩
  trans := by
    intro x y z hx hy hz xy yz
    have cx := hx.1.met
    have cy := hy.1.met
    have cz := hz.1.met
    rw [Reached.before_eq_false] at xy yz ⊢
    refine ⟨law.atMost_trans cx cy cz xy.1 yz.1, fun level => ?_⟩
    have levelXY : lt x.cost y.cost = false := by
      cases h : lt x.cost y.cost with
      | false => rfl
      | true => rw [law.lt_of_lt_of_atMost cx cy cz h yz.1] at level; cases level
    have levelYZ : lt y.cost z.cost = false := by
      cases h : lt y.cost z.cost with
      | false => rfl
      | true => rw [law.lt_of_atMost_of_lt cx cy cz xy.1 h] at level; cases level
    exact Nat.le_trans (xy.2 levelXY) (yz.2 levelYZ)

/-- Entries of one cost and one node are the same. -/
theorem CostOrder.decisive (law : CostOrder net measure source) :
    Queue.Decisive (Reached.Legal net measure source) Reached.before := by
  rintro ⟨a, v⟩ ⟨b, w⟩ hx hy xy yx
  rw [Reached.before_eq_false] at xy yx
  obtain rfl : a = b := law.antisymm hx.1.met hy.1.met yx.1 xy.1
  have level : lt a a = false := law.irrefl hx.1.met
  obtain rfl : v = w := Id.index_injective (Nat.le_antisymm (yx.2 level) (xy.2 level))
  rfl

theorem CostOrder.ranks_cheaper (law : CostOrder net measure source) :
    Ranks (Reached.Legal net measure source) (Reached.cheaper (α := α)) where
  asymm hx hy first := law.atMost_of_lt hx.1.met hy.1.met first
  trans hx hy hz xy yz := law.atMost_trans hx.1.met hy.1.met hz.1.met xy yz

/-- A queue that heeds nodes gives out some entry of least cost. -/
theorem Queue.Lawful.cheaper {q : Queue (Reached α) σ} {legal : Reached α → Prop}
    {Holds : σ → Multiset (Reached α) → Prop} (lawful : q.Lawful legal Reached.before Holds) :
    q.Lawful legal Reached.cheaper Holds where
  empty := lawful.empty
  push := lawful.push
  popNone := lawful.popNone
  popSome := by
    intro s m x rest holds popped
    obtain ⟨others, same, held, least⟩ := lawful.popSome holds popped
    refine ⟨others, same, held, fun y hy => ?_⟩
    exact (Reached.before_eq_false.mp (least y hy)).1

end RoadFlow
