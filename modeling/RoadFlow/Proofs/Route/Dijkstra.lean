import RoadFlow.Proofs.Route.Queue
import RoadFlow.Proofs.Route.Tree
import RoadFlow.Route.Dijkstra

/-!
# Least-cost searches

The invariant of the search comes in two layers. `Inv` needs only that costs are ordered: entries
lead back along settled nodes, and an entry that is not stale is popped at the cost held for its
node. `Tight` needs sums that never go down: nodes are settled in order of cost, and the edges that
leave them have been relaxed, so that of the edges that lead from there to a node at its cost the
lowest is held. When the frontier is empty the first makes the tree rooted, and with the second the
tree has reached the end of every walk whose sum is finite (`Tight.bound`). How the queue orders
entries of one cost does not matter to either.
-/

namespace RoadFlow.Dijkstra

open PathCost

variable {α σ : Type} [PathCost α] {queue : Queue (Reached α) σ} {net : Network}
  {measure : EdgeId → α} {source : NodeId} {s : State α σ} {order : List NodeId}
  {waiting : Multiset (Reached α)} {here : Reached α} {e : EdgeId} {edge : Edge}

/-- After the nodes of `order` have been settled, one by one, and with `waiting` in the frontier. -/
structure Inv (net : Network) (measure : EdgeId → α) (source : NodeId) (s : State α σ)
    (order : List NodeId) (waiting : Multiset (Reached α)) : Prop where
  nodes : s.tree.nodeCount = net.nodeCount
  entries : s.tree.entry.size = net.nodeCount
  marks : s.settled.size = net.nodeCount
  root : s.tree.source = source
  home : source.index < net.nodeCount
  origin : s.tree.costAt source = 0
  begun : source ∈ order ∨ order = [] ∧ waiting = {⟨0, source⟩}
  nodup : order.Nodup
  inside : ∀ {v}, v ∈ order → v.index < net.nodeCount
  settled : ∀ {v}, s.isSettled v = true ↔ v ∈ order
  reached : ∀ {v}, v ∈ order → isFinite (s.tree.costAt v) = true
  met : ∀ {v}, s.tree.costAt v = unreached ∨ net.Attains measure source v (s.tree.costAt v)
  legal : ∀ {x}, x ∈ waiting → x.Legal net measure source
  stale : ∀ {x}, x ∈ waiting → AtMost (s.tree.costAt x.node) x.cost
  queued : ∀ {v}, v ∉ order → isFinite (s.tree.costAt v) = true → ⟨s.tree.costAt v, v⟩ ∈ waiting
  parent : ∀ {v}, isFinite (s.tree.costAt v) = true → v ≠ source →
    ∃ via, s.tree.Parent net measure v via ∧ via.node ∈ order ∧
      (v ∈ order → order.idxOf via.node < order.idxOf v)
  bare : s.tree.entry? source = none
  entered : ∀ {v via}, s.tree.entry? v = some via → via.node ∈ order ∧
    ∃ edge, net.edge? via.edge = some edge ∧ edge.source = via.node ∧ edge.target = v

/-- Settled nodes cost no more than those settled later and those that wait, and the edges that
leave them are relaxed but for those that are left to do. A node has an entry from then on, even if
the sum is no less than the mark, and it is the lowest that leads there at its cost from a node
settled before it. -/
structure Tight (net : Network) (measure : EdgeId → α) (s : State α σ) (order : List NodeId)
    (waiting : Multiset (Reached α)) (todo : List EdgeId) : Prop where
  lower : ∀ {u x}, u ∈ order → x ∈ waiting → AtMost (s.tree.costAt u) x.cost
  relaxed : ∀ {e edge}, net.edge? e = some edge → edge.source ∈ order → e ∉ todo →
    AtMost (s.tree.costAt edge.target) (s.tree.costAt edge.source + measure e)
  held : ∀ {e edge}, net.edge? e = some edge → edge.source ∈ order → e ∉ todo →
    edge.target ≠ s.tree.source → (s.tree.entry? edge.target).isSome = true
  ascending : order.Pairwise fun u v => AtMost (s.tree.costAt u) (s.tree.costAt v)
  lowest : ∀ {e edge via}, net.edge? e = some edge →
    order.idxOf edge.source < order.idxOf edge.target → e ∉ todo →
    s.tree.costAt edge.source + measure e = s.tree.costAt edge.target →
    s.tree.entry? edge.target = some via → via.edge.index ≤ e.index

theorem Inv.met_costAt (inv : Inv net measure source s order waiting) {v : NodeId} :
    net.Met measure source (s.tree.costAt v) := inv.met.imp id fun h => ⟨v, h⟩

theorem Inv.begun_of_mem (inv : Inv net measure source s order waiting) {v : NodeId}
    (h : v ∈ order) : source ∈ order := by
  rcases inv.begun with begun | ⟨rfl, -⟩
  · exact begun
  · exact absurd h List.not_mem_nil

theorem Inv.attains (inv : Inv net measure source s order waiting)
    (law : CostOrder net measure source) {v : NodeId} (h : isFinite (s.tree.costAt v) = true) :
    net.Attains measure source v (s.tree.costAt v) := by
  rcases inv.met (v := v) with mark | attains
  · rw [mark, law.mark_not_finite] at h
    cases h
  · exact attains

/-! ## Relaxing an edge -/

theorem Inv.held (inv : Inv net measure source s order waiting) {v : NodeId}
    (finite : isFinite (s.tree.costAt v) = true) (away : v ≠ s.tree.source) :
    (s.tree.entry? v).isSome = true := by
  rw [inv.root] at away
  obtain ⟨via, parent, -⟩ := inv.parent finite away
  rw [parent.held]
  rfl

/-- An edge is relaxed in vain, or it leads to an open node at a lower cost or at the same one. -/
theorem relax_cases (queue : Queue (Reached α) σ) (measure : EdgeId → α) (here : Reached α)
    (s : State α σ) (found : net.edge? e = some edge) :
    (relax queue net measure here s e = s ∧
      (edge.source = edge.target ∨ s.isSettled edge.target = true ∨
        AtMost (s.tree.costAt edge.target) (here.cost + measure e) ∧
          (lt (s.tree.costAt edge.target) (here.cost + measure e) = true ∨
            ∃ via, s.tree.entry? edge.target = some via ∧ via.edge.index ≤ e.index))) ∨
    (s.isSettled edge.target = false ∧
      lt (here.cost + measure e) (s.tree.costAt edge.target) = true ∧
      relax queue net measure here s e =
        { s with
          tree := s.tree.reach edge.target (here.cost + measure e) ⟨here.node, e⟩
          frontier := queue.push ⟨here.cost + measure e, edge.target⟩ s.frontier }) ∨
    (s.isSettled edge.target = false ∧
      same (here.cost + measure e) (s.tree.costAt edge.target) = true ∧
      (∀ via, s.tree.entry? edge.target = some via → e.index < via.edge.index) ∧
      relax queue net measure here s e =
        { s with
          tree := s.tree.reach edge.target (s.tree.costAt edge.target) ⟨here.node, e⟩ }) := by
  have loop : net.isLoop e = (edge.source == edge.target) := by simp [Network.isLoop, found]
  rw [relax, found]
  simp only [loop]
  split
  · rename_i skip
    rw [Bool.or_eq_true, beq_iff_eq] at skip
    exact .inl ⟨rfl, skip.imp id .inl⟩
  · rename_i isOpen
    rw [Bool.or_eq_true, not_or, Bool.not_eq_true, Bool.not_eq_true] at isOpen
    split
    · rename_i cheaper
      exact .inr (.inl ⟨isOpen.2, cheaper, rfl⟩)
    · rename_i notCheaper
      split
      · rename_i level
        rw [Bool.and_eq_true] at level
        refine .inr (.inr ⟨isOpen.2, level.1, fun via held => ?_, rfl⟩)
        simpa [held, Id.precedes] using level.2
      · rename_i kept
        refine .inl ⟨rfl, .inr (.inr ⟨atMost_of_not_lt notCheaper, ?_⟩)⟩
        by_contra neither
        rw [not_or, not_exists] at neither
        apply kept
        cases held : s.tree.entry? edge.target with
        | none => simp [PathCost.same, notCheaper, neither.1]
        | some via =>
          have lower : e.index < via.edge.index := by simpa [held] using neither.2 via
          simp [PathCost.same, notCheaper, neither.1, Id.precedes, lower]

/-- An edge that leaves the node settled last. -/
structure Relaxing (net : Network) (s : State α σ) (order : List NodeId) (here : Reached α)
    (e : EdgeId) (edge : Edge) : Prop where
  found : net.edge? e = some edge
  leaves : edge.source = here.node
  settled : here.node ∈ order
  last : ∀ {v}, v ∈ order → order.idxOf v ≤ order.idxOf here.node
  cost : s.tree.costAt here.node = here.cost

theorem Relaxing.attains (relaxing : Relaxing net s order here e edge)
    (inv : Inv net measure source s order waiting) (law : CostOrder net measure source) :
    net.Attains measure source edge.target (here.cost + measure e) := by
  have attains := inv.attains law (inv.reached relaxing.settled)
  rw [relaxing.cost, ← relaxing.leaves] at attains
  exact attains.go relaxing.found

/-- An entry below the mark is held, new or not, and nothing else has come in. -/
structure Entered (waiting others : Multiset (Reached α)) (x : Reached α) : Prop where
  more : waiting ≤ others
  new : ∀ {y}, y ∈ others → y ∈ waiting ∨ y = x ∧ isFinite x.cost = true
  queued : isFinite x.cost = true → x ∈ others

theorem entered_cons {x : Reached α} (finite : isFinite x.cost = true) :
    Entered waiting (x ::ₘ waiting) x where
  more := Multiset.le_cons_self _ _
  new := by
    intro y hy
    rcases Multiset.mem_cons.mp hy with rfl | old
    · exact .inr ⟨rfl, finite⟩
    · exact .inl old
  queued _ := Multiset.mem_cons_self _ _

theorem entered_of_mem {x : Reached α} (held : isFinite x.cost = true → x ∈ waiting) :
    Entered waiting waiting x where
  more := le_rfl
  new := .inl
  queued := held

/-- An open node is entered from a settled one, at no more than the cost held for it. -/
theorem Inv.reach (inv : Inv net measure source s order waiting) (sound : net.Sound)
    (law : CostOrder net measure source) (relaxing : Relaxing net s order here e edge)
    (isOpen : edge.target ∉ order)
    (cheaper : AtMost (here.cost + measure e) (s.tree.costAt edge.target)) (frontier : σ)
    {others : Multiset (Reached α)}
    (entered : Entered waiting others ⟨here.cost + measure e, edge.target⟩) :
    Inv net measure source
      { s with
        tree := s.tree.reach edge.target (here.cost + measure e) ⟨here.node, e⟩
        frontier := frontier } order others := by
  have attains := relaxing.attains inv law
  have small : edge.target.index < s.tree.nodeCount := by
    rw [inv.nodes]
    exact sound.target_lt relaxing.found
  have costAt (v : NodeId) := PathTree.costAt_reach small (here.cost + measure e) ⟨here.node, e⟩ v
  have begun : source ∈ order := inv.begun_of_mem relaxing.settled
  have entry (v : NodeId) := PathTree.entry?_reach (by rwa [inv.entries, ← inv.nodes])
    (here.cost + measure e) ⟨here.node, e⟩ v
  have away {v : NodeId} (h : v ∈ order) : v ≠ edge.target := fun same => isOpen (same ▸ h)
  have kept {v : NodeId} (h : v ∈ order) :
      (s.tree.reach edge.target (here.cost + measure e) ⟨here.node, e⟩).costAt v =
        s.tree.costAt v := by
    rw [costAt, if_neg (away h)]
  refine
    { nodes := by simpa using inv.nodes
      entries := by simpa using inv.entries
      marks := inv.marks
      root := inv.root
      home := inv.home
      origin := (kept begun).trans inv.origin
      begun := .inl begun
      nodup := inv.nodup
      inside := inv.inside
      settled := inv.settled
      reached := fun h => by rw [kept h]; exact inv.reached h
      met := ?_
      legal := ?_
      stale := ?_
      queued := ?_
      parent := ?_
      bare := ?_
      entered := ?_ }
  · intro v
    rw [costAt]
    split
    · rename_i same
      exact .inr (same ▸ attains)
    · exact inv.met
  · intro x hx
    rcases entered.new hx with old | ⟨rfl, finite⟩
    · exact inv.legal old
    · exact ⟨attains, finite⟩
  · intro x hx
    rw [costAt]
    rcases entered.new hx with old | ⟨rfl, -⟩
    · split
      · rename_i same
        have bound := inv.stale old
        rw [same] at bound
        exact law.atMost_trans attains.met inv.met_costAt (inv.legal old).1.met cheaper bound
      · exact inv.stale old
    · rw [if_pos rfl]
      exact law.atMost_refl attains.met
  · intro v isNew finite
    rw [costAt] at finite ⊢
    split at finite
    · rename_i same
      rw [if_pos same, same]
      exact entered.queued finite
    · rename_i other
      rw [if_neg other]
      exact Multiset.mem_of_le entered.more (inv.queued isNew finite)
  · intro v finite elsewhere
    rw [costAt] at finite
    split at finite
    · rename_i same
      subst same
      refine ⟨⟨here.node, e⟩, ⟨?_, ?_, ?_, ?_⟩, relaxing.settled, fun h => absurd h isOpen⟩
      · rw [entry, if_pos rfl]
      · exact ⟨edge, relaxing.found, relaxing.leaves, rfl⟩
      · rw [PathTree.isReached_iff, kept relaxing.settled]
        refine ⟨?_, inv.reached relaxing.settled⟩
        rw [PathTree.nodeCount_reach, inv.nodes]
        exact inv.inside relaxing.settled
      · rw [kept relaxing.settled, relaxing.cost, costAt, if_pos rfl]
    · rename_i other
      obtain ⟨via, parent, before, first⟩ := inv.parent finite elsewhere
      exact ⟨via, parent.reach small other (away before) _ _, before, first⟩
  · rw [entry, if_neg (away begun)]
    exact inv.bare
  · intro v via held
    rw [entry] at held
    split at held
    · rename_i same
      cases held
      exact ⟨relaxing.settled, edge, relaxing.found, relaxing.leaves, same.symm⟩
    · exact inv.entered held

/-- Nothing settled costs more than the node settled last. -/
def Top (s : State α σ) (order : List NodeId) (here : Reached α) : Prop :=
  ∀ {u}, u ∈ order → AtMost (s.tree.costAt u) here.cost

/-- An edge never leads from the node settled last to a cost below that of a settled node. -/
theorem Top.atMost (top : Top s order here) (inv : Inv net measure source s order waiting)
    (law : CostOrder.Growing net measure source) (relaxing : Relaxing net s order here e edge)
    {u : NodeId} (hu : u ∈ order) : AtMost (s.tree.costAt u) (here.cost + measure e) := by
  have attains := inv.attains law.toCostOrder (inv.reached relaxing.settled)
  rw [relaxing.cost, ← relaxing.leaves] at attains
  exact law.atMost_trans inv.met_costAt attains.met (attains.go relaxing.found).met (top hu)
    (law.grows attains relaxing.found)

theorem Tight.skip {todo : List EdgeId} (tight : Tight net measure s order waiting (e :: todo))
    (inv : Inv net measure source s order waiting) (law : CostOrder.Growing net measure source)
    (relaxing : Relaxing net s order here e edge) (top : Top s order here)
    (why : edge.source = edge.target ∨ edge.target ∈ order ∨
      AtMost (s.tree.costAt edge.target) (here.cost + measure e) ∧
        (lt (s.tree.costAt edge.target) (here.cost + measure e) = true ∨
          ∃ via, s.tree.entry? edge.target = some via ∧ via.edge.index ≤ e.index)) :
    Tight net measure s order waiting todo := by
  have old_or_held : edge.target ∈ order ∨
      AtMost (s.tree.costAt edge.target) (here.cost + measure e) ∧
        (lt (s.tree.costAt edge.target) (here.cost + measure e) = true ∨
          ∃ via, s.tree.entry? edge.target = some via ∧ via.edge.index ≤ e.index) := by
    rcases why with loop | rest
    · rw [← loop, relaxing.leaves]
      exact .inl relaxing.settled
    · exact rest
  have sum := relaxing.attains inv law.toCostOrder
  refine ⟨tight.lower, ?_, ?_, tight.ascending, ?_⟩
  · intro f other found settled done
    by_cases same : f = e
    · subst same
      cases found.symm.trans relaxing.found
      rw [relaxing.leaves, relaxing.cost]
      rcases old_or_held with old | ⟨bound, -⟩
      · exact top.atMost inv law relaxing old
      · exact bound
    · exact tight.relaxed found settled (by simp [same, done])
  · intro f other found settled done away
    by_cases same : f = e
    · subst same
      cases found.symm.trans relaxing.found
      rcases old_or_held with old | ⟨-, below | ⟨via, held, -⟩⟩
      · exact inv.held (inv.reached old) away
      · exact inv.held (law.lt_of_lt_of_atMost inv.met_costAt sum.met (net.met_mark measure source)
          below (law.atMost_mark sum.met)) away
      · rw [held]
        rfl
    · exact tight.held found settled (by simp [same, done]) away
  · intro f other via found earlier done level held
    by_cases same : f = e
    · subst same
      cases found.symm.trans relaxing.found
      rw [relaxing.leaves] at earlier level
      rw [relaxing.cost] at level
      rcases old_or_held with old | ⟨-, below | ⟨via', held', low⟩⟩
      · exact absurd earlier (Nat.not_lt.mpr (relaxing.last old))
      · rw [level, law.irrefl inv.met_costAt] at below
        cases below
      · cases held.symm.trans held'
        exact low
    · exact tight.lowest found earlier (by simp [same, done]) level held

theorem Tight.reach {todo : List EdgeId} (tight : Tight net measure s order waiting (e :: todo))
    (inv : Inv net measure source s order waiting) (sound : net.Sound)
    (law : CostOrder.Growing net measure source) (relaxing : Relaxing net s order here e edge)
    (top : Top s order here) (isOpen : edge.target ∉ order)
    (cheaper : AtMost (here.cost + measure e) (s.tree.costAt edge.target))
    (first : lt (here.cost + measure e) (s.tree.costAt edge.target) = true ∨
      ∀ via, s.tree.entry? edge.target = some via → e.index < via.edge.index)
    (frontier : σ) {others : Multiset (Reached α)}
    (entered : Entered waiting others ⟨here.cost + measure e, edge.target⟩) :
    Tight net measure
      { s with
        tree := s.tree.reach edge.target (here.cost + measure e) ⟨here.node, e⟩
        frontier := frontier } order others todo := by
  have attains := relaxing.attains inv law.toCostOrder
  have small : edge.target.index < s.tree.nodeCount := by
    rw [inv.nodes]
    exact sound.target_lt relaxing.found
  have costAt (v : NodeId) := PathTree.costAt_reach small (here.cost + measure e) ⟨here.node, e⟩ v
  have entry (v : NodeId) := PathTree.entry?_reach (by rwa [inv.entries, ← inv.nodes])
    (here.cost + measure e) ⟨here.node, e⟩ v
  have kept {v : NodeId} (h : v ∈ order) :
      (s.tree.reach edge.target (here.cost + measure e) ⟨here.node, e⟩).costAt v =
        s.tree.costAt v := by
    rw [costAt, if_neg]
    intro same
    exact isOpen (same ▸ h)
  refine ⟨?_, ?_, ?_, ?_, ?_⟩
  · intro u x hu hx
    rw [kept hu]
    rcases entered.new hx with old | ⟨rfl, -⟩
    · exact tight.lower hu old
    · exact top.atMost inv law relaxing hu
  · intro f other found settled done
    rw [kept settled, costAt]
    by_cases same : f = e
    · subst same
      cases found.symm.trans relaxing.found
      rw [if_pos rfl, relaxing.leaves, relaxing.cost]
      exact law.atMost_refl attains.met
    · have bound := tight.relaxed found settled (by simp [same, done])
      split
      · rename_i target
        have source := inv.attains law.toCostOrder (inv.reached settled)
        rw [target] at bound
        exact law.atMost_trans attains.met inv.met_costAt (source.go found).met cheaper bound
      · exact bound
  · intro f other found settled done away
    rw [entry]
    by_cases same : f = e
    · subst same
      cases found.symm.trans relaxing.found
      rw [if_pos rfl]
      rfl
    · split
      · rfl
      · exact tight.held found settled (by simp [same, done]) away
  · exact tight.ascending.imp_of_mem fun hu hv low => by rwa [kept hu, kept hv]
  · intro f other via found earlier done level held
    have settled : other.source ∈ order :=
      List.idxOf_lt_length_iff.mp (earlier.trans_le List.idxOf_le_length)
    rw [kept settled, costAt] at level
    rw [entry] at held
    by_cases target : other.target = edge.target
    · rw [if_pos target] at level held
      cases held
      by_cases same : f = e
      · exact (congrArg Id.index same).ge
      · have left : f ∉ e :: todo := by simp [same, done]
        have bound := tight.relaxed found settled left
        rw [level, target] at bound
        -- An edge relaxed before has led here at the same cost only if nothing has been gained.
        rcases first with gained | low
        · rw [AtMost, gained] at bound
          cases bound
        · have away : other.target ≠ s.tree.source := by
            rw [inv.root, target]
            exact fun home => isOpen (home ▸ inv.begun_of_mem settled)
          obtain ⟨via, held⟩ := Option.isSome_iff_exists.mp (tight.held found settled left away)
          have equal := law.antisymm attains.met inv.met_costAt cheaper bound
          have least := tight.lowest found earlier left (by rw [level, target, equal]) held
          have lower := low via (by rw [← target, held])
          exact lower.le.trans least
    · rw [if_neg target] at level held
      have left : f ∉ e :: todo := by
        have other_edge : f ≠ e := by
          rintro rfl
          cases found.symm.trans relaxing.found
          exact target rfl
        simp [other_edge, done]
      exact tight.lowest found earlier left level held

/-- In the midst of relaxing the edges that leave the node settled last, with some left to do. -/
structure Midway (Holds : σ → Multiset (Reached α) → Prop) (net : Network) (measure : EdgeId → α)
    (source : NodeId) (order : List NodeId) (here : Reached α) (budget : Nat) (s : State α σ)
    (todo : List EdgeId) (waiting : Multiset (Reached α)) : Prop where
  inv : Inv net measure source s order waiting
  holds : Holds s.frontier waiting
  cost : s.tree.costAt here.node = here.cost
  card : waiting.card + todo.length ≤ budget
  tight : CostOrder.Growing net measure source →
    Tight net measure s order waiting todo ∧ Top s order here

variable {Holds : σ → Multiset (Reached α) → Prop} {budget : Nat} {todo : List EdgeId}

theorem Midway.reach (mid : Midway Holds net measure source order here budget s (e :: todo) waiting)
    (sound : net.Sound) (law : CostOrder net measure source)
    (relaxing : Relaxing net s order here e edge) (isOpen : edge.target ∉ order)
    (cheaper : AtMost (here.cost + measure e) (s.tree.costAt edge.target))
    (first : lt (here.cost + measure e) (s.tree.costAt edge.target) = true ∨
      ∀ via, s.tree.entry? edge.target = some via → e.index < via.edge.index)
    (frontier : σ) {others : Multiset (Reached α)}
    (entered : Entered waiting others ⟨here.cost + measure e, edge.target⟩)
    (holds : Holds frontier others) (card : others.card ≤ waiting.card + 1) :
    Midway Holds net measure source order here budget
      { s with
        tree := s.tree.reach edge.target (here.cost + measure e) ⟨here.node, e⟩
        frontier := frontier } todo others := by
  have small : edge.target.index < s.tree.nodeCount := by
    rw [mid.inv.nodes]
    exact sound.target_lt relaxing.found
  have kept {v : NodeId} (h : v ∈ order) :
      (s.tree.reach edge.target (here.cost + measure e) ⟨here.node, e⟩).costAt v =
        s.tree.costAt v := by
    rw [PathTree.costAt_reach small, if_neg]
    intro same
    exact isOpen (same ▸ h)
  have room := mid.card
  rw [List.length_cons] at room
  refine ⟨mid.inv.reach sound law relaxing isOpen cheaper frontier entered, holds, ?_, by omega, ?_⟩
  · exact (kept relaxing.settled).trans mid.cost
  · intro growing
    obtain ⟨tight, top⟩ := mid.tight growing
    refine ⟨tight.reach mid.inv sound growing relaxing top isOpen cheaper first frontier entered,
      ?_⟩
    intro u hu
    rw [kept hu]
    exact top hu

theorem Midway.relax
    (mid : Midway Holds net measure source order here budget s (e :: todo) waiting)
    (lawful : queue.Lawful (Reached.Legal net measure source) Reached.cheaper Holds)
    (sound : net.Sound) (law : CostOrder net measure source) (settled : here.node ∈ order)
    (last : ∀ {v}, v ∈ order → order.idxOf v ≤ order.idxOf here.node)
    (leaves : e ∈ net.edgesFrom here.node) :
    ∃ others, Midway Holds net measure source order here budget
      (relax queue net measure here s e) todo others := by
  have inv := mid.inv
  obtain ⟨edge, found, source⟩ := sound.mem_edgesFrom.mp leaves
  have relaxing : Relaxing net s order here e edge := ⟨found, source, settled, last, mid.cost⟩
  have sum := relaxing.attains inv law
  have known := inv.met_costAt (v := edge.target)
  have away (isOpen : s.isSettled edge.target = false) : edge.target ∉ order := by
    rw [← inv.settled, isOpen]
    decide
  rcases relax_cases queue measure here s found with
    ⟨same, why⟩ | ⟨isOpen, cheaper, next⟩ | ⟨isOpen, level, lower, next⟩
  · rw [same]
    rw [inv.settled] at why
    have room := mid.card
    rw [List.length_cons] at room
    refine ⟨waiting, inv, mid.holds, mid.cost, by omega, fun growing => ?_⟩
    obtain ⟨tight, top⟩ := mid.tight growing
    exact ⟨tight.skip inv growing relaxing top why, top⟩
  · rw [next]
    have finite : isFinite (here.cost + measure e) = true :=
      law.lt_of_lt_of_atMost sum.met known (net.met_mark measure _) cheaper (law.atMost_mark known)
    exact ⟨_, mid.reach sound law relaxing (away isOpen) (law.atMost_of_lt sum.met known cheaper)
      (.inl cheaper) _ (entered_cons finite) (lawful.push mid.holds ⟨sum, finite⟩)
      (Multiset.card_cons _ _).le⟩
  · rw [same_iff] at level
    have equal := law.antisymm sum.met known level.2 level.1
    rw [next, ← equal]
    refine ⟨waiting, mid.reach sound law relaxing (away isOpen) level.2 (.inr lower) _
      (entered_of_mem fun finite => ?_) mid.holds (by omega)⟩
    simp only [equal] at finite ⊢
    exact inv.queued (away isOpen) finite

theorem Midway.relaxAll
    (lawful : queue.Lawful (Reached.Legal net measure source) Reached.cheaper Holds)
    (sound : net.Sound) (law : CostOrder net measure source) (settled : here.node ∈ order)
    (last : ∀ {v}, v ∈ order → order.idxOf v ≤ order.idxOf here.node)
    (leaves : ∀ e ∈ todo, e ∈ net.edgesFrom here.node)
    (mid : Midway Holds net measure source order here budget s todo waiting) :
    ∃ others, Midway Holds net measure source order here budget
      (todo.foldl (Dijkstra.relax queue net measure here) s) [] others := by
  induction todo generalizing s waiting with
  | nil => exact ⟨waiting, mid⟩
  | cons e todo ih =>
    obtain ⟨others, mid'⟩ := mid.relax lawful sound law settled last (leaves e (by simp))
    exact ih (fun f hf => leaves f (by simp [hf])) mid'

/-! ## Settling a node -/

omit [PathCost α] in
theorem isSettled_mark {v n : NodeId} (inside : n.index < s.settled.size) :
    { s with settled := s.settled.setIfInBounds n.index true }.isSettled v =
      if v = n then true else s.isSettled v := by
  rw [State.isSettled, Array.getD_eq_getD_getElem?, Array.getElem?_setIfInBounds]
  by_cases same : v = n
  · simp [same, inside]
  · have := Id.index_ne (Ne.symm same)
    simp [this, same, State.isSettled]

variable {others : Multiset (Reached α)}

/-- A stale entry is dropped. -/
theorem Inv.drop (inv : Inv net measure source s order (here ::ₘ others))
    (old : here.node ∈ order) (frontier : σ) :
    Inv net measure source { s with frontier } order others :=
  { inv with
    begun := by
      rcases inv.begun with begun | ⟨rfl, _⟩
      · exact .inl begun
      · exact absurd old List.not_mem_nil
    legal := fun h => inv.legal (Multiset.mem_cons_of_mem h)
    stale := fun h => inv.stale (Multiset.mem_cons_of_mem h)
    queued := by
      intro v away finite
      rcases Multiset.mem_cons.mp (inv.queued away finite) with same | held
      · exact absurd (by rw [← same] at old; exact old) away
      · exact held }

theorem Tight.drop (tight : Tight net measure s order (here ::ₘ others) []) (frontier : σ) :
    Tight net measure { s with frontier } order others [] :=
  { tight with lower := fun hu hx => tight.lower hu (Multiset.mem_cons_of_mem hx) }

/-- An entry that no other undercuts, and whose node is open, is not stale. -/
theorem Inv.cost_eq (inv : Inv net measure source s order (here ::ₘ others))
    (law : CostOrder net measure source) (isOpen : here.node ∉ order)
    (least : ∀ y ∈ others, AtMost here.cost y.cost) :
    s.tree.costAt here.node = here.cost := by
  obtain ⟨attains, finite⟩ := inv.legal (Multiset.mem_cons_self here others)
  have bound := inv.stale (Multiset.mem_cons_self here others)
  have held : isFinite (s.tree.costAt here.node) = true :=
    law.lt_of_atMost_of_lt inv.met_costAt attains.met (net.met_mark measure source) bound finite
  rcases Multiset.mem_cons.mp (inv.queued isOpen held) with same | later
  · rw [← same]
  · exact law.antisymm inv.met_costAt attains.met bound (least _ later)

theorem Inv.settle (inv : Inv net measure source s order (here ::ₘ others))
    (law : CostOrder net measure source) (inside : here.node.index < net.nodeCount)
    (isOpen : here.node ∉ order) (least : ∀ y ∈ others, AtMost here.cost y.cost)
    (frontier : σ) :
    Inv net measure source
      { s with settled := s.settled.setIfInBounds here.node.index true, frontier }
      (order ++ [here.node]) others := by
  have cost := inv.cost_eq law isOpen least
  refine
    { nodes := inv.nodes
      entries := inv.entries
      marks := by simpa using inv.marks
      root := inv.root
      home := inv.home
      origin := inv.origin
      begun := ?_
      nodup := ?_
      inside := ?_
      settled := ?_
      reached := ?_
      met := inv.met
      legal := fun h => inv.legal (Multiset.mem_cons_of_mem h)
      stale := fun h => inv.stale (Multiset.mem_cons_of_mem h)
      queued := ?_
      parent := ?_
      bare := inv.bare
      entered := fun held => (inv.entered held).imp (List.mem_append_left _) id }
  · left
    rcases inv.begun with begun | ⟨rfl, single⟩
    · exact List.mem_append_left _ begun
    · have first : here ∈ ({⟨0, source⟩} : Multiset (Reached α)) :=
        single ▸ Multiset.mem_cons_self here others
      rw [Multiset.mem_singleton.mp first]
      simp
  · rw [List.nodup_append]
    refine ⟨inv.nodup, by simp, ?_⟩
    rintro a ha b hb rfl
    exact isOpen (List.mem_singleton.mp hb ▸ ha)
  · intro v hv
    rcases List.mem_append.mp hv with old | last
    · exact inv.inside old
    · rwa [List.mem_singleton.mp last]
  · intro v
    have mark := isSettled_mark (s := s) (v := v) (n := here.node) (by rwa [inv.marks])
    rw [List.mem_append, List.mem_singleton, ← inv.settled]
    refine (iff_of_eq (congrArg (· = true) mark)).trans ?_
    by_cases same : v = here.node <;> simp [same]
  · intro v hv
    rcases List.mem_append.mp hv with old | last
    · exact inv.reached old
    · rw [List.mem_singleton.mp last]
      show isFinite (s.tree.costAt here.node) = true
      rw [cost]
      exact (inv.legal (Multiset.mem_cons_self here others)).2
  · intro v away finite
    rw [List.mem_append, List.mem_singleton, not_or] at away
    rcases Multiset.mem_cons.mp (inv.queued away.1 finite) with same | held
    · exact absurd (by rw [← same]) away.2
    · exact held
  · intro v finite away
    obtain ⟨via, parent, before, first⟩ := inv.parent finite away
    refine ⟨via, parent, List.mem_append_left _ before, fun hv => ?_⟩
    rw [List.idxOf_append_of_mem before]
    by_cases old : v ∈ order
    · rw [List.idxOf_append_of_mem old]
      exact first old
    · rw [List.idxOf_append_of_notMem old]
      have := List.idxOf_lt_length_iff.mpr before
      omega

theorem Tight.settle (tight : Tight net measure s order (here ::ₘ others) [])
    (inv : Inv net measure source s order (here ::ₘ others)) (sound : net.Sound)
    (law : CostOrder net measure source) (isOpen : here.node ∉ order)
    (least : ∀ y ∈ others, AtMost here.cost y.cost) (frontier : σ) :
    Tight net measure { s with settled := s.settled.setIfInBounds here.node.index true, frontier }
        (order ++ [here.node]) others (net.edgesFrom here.node) ∧
      Top { s with settled := s.settled.setIfInBounds here.node.index true, frontier }
        (order ++ [here.node]) here := by
  have cost := inv.cost_eq law isOpen least
  have newest : here ∈ here ::ₘ others := Multiset.mem_cons_self here others
  refine ⟨⟨?_, ?_, ?_, ?_, ?_⟩, ?_⟩
  · intro u x hu hx
    rcases List.mem_append.mp hu with old | last
    · exact tight.lower old (Multiset.mem_cons_of_mem hx)
    · rw [List.mem_singleton.mp last, cost]
      exact least x hx
  · intro e edge found settled done
    rcases List.mem_append.mp settled with old | last
    · exact tight.relaxed found old List.not_mem_nil
    · exact absurd (sound.mem_edgesFrom.mpr ⟨edge, found, List.mem_singleton.mp last⟩) done
  · intro e edge found settled done away
    rcases List.mem_append.mp settled with old | last
    · exact tight.held found old List.not_mem_nil away
    · exact absurd (sound.mem_edgesFrom.mpr ⟨edge, found, List.mem_singleton.mp last⟩) done
  · refine List.pairwise_append.mpr ⟨tight.ascending, List.pairwise_singleton _ _, ?_⟩
    intro u hu v hv
    rw [List.mem_singleton.mp hv, cost]
    exact tight.lower hu newest
  · intro e edge via found earlier done level held
    refine tight.lowest found ?_ List.not_mem_nil level held
    by_cases source : edge.source ∈ order
    · rw [List.idxOf_append_of_mem source] at earlier
      by_cases target : edge.target ∈ order
      · rwa [List.idxOf_append_of_mem target] at earlier
      · rw [List.idxOf_of_notMem target]
        exact List.idxOf_lt_length_iff.mpr source
    · have new : edge.source ∈ order ++ [here.node] :=
        List.idxOf_lt_length_iff.mp (earlier.trans_le List.idxOf_le_length)
      have leaves : edge.source = here.node := by simpa [source] using new
      exact absurd (sound.mem_edgesFrom.mpr ⟨edge, found, leaves⟩) done
  · intro u hu
    rcases List.mem_append.mp hu with old | last
    · exact tight.lower old newest
    · rw [List.mem_singleton.mp last, cost]
      exact law.atMost_refl (inv.legal newest).1.met

/-- The number of edges whose source is not settled. -/
def pending (net : Network) (order : List NodeId) : Nat :=
  net.edgeIds.countP fun e => (net.edge? e).any fun edge => edge.source ∉ order

theorem pending_settle (sound : net.Sound) {n : NodeId} (isOpen : n ∉ order) :
    pending net (order ++ [n]) + (net.edgesFrom n).length = pending net order := by
  rw [sound.edgesFrom_eq, ← List.countP_eq_length_filter]
  unfold pending
  induction net.edgeIds with
  | nil => rfl
  | cons e rest ih =>
    simp only [List.countP_cons]
    cases found : net.edge? e with
    | none => simpa [Network.leaves, found] using ih
    | some edge =>
      by_cases source : edge.source = n
      · simp [Network.leaves, found, source, isOpen] at ih ⊢
        omega
      · simp [Network.leaves, found, source] at ih ⊢
        omega

/-! ## Whole searches -/

/-- The node that an entry of the frontier settles, unless the entry is stale. -/
def settling (s : State α σ) (here : Reached α) : List NodeId :=
  if s.isSettled here.node then [] else [here.node]

/-- The nodes that a run settles, in order. -/
def settlings (queue : Queue (Reached α) σ) (net : Network) (measure : EdgeId → α) :
    Nat → State α σ → List NodeId
  | 0, _ => []
  | fuel + 1, s =>
    match queue.popLeast? s.frontier with
    | none => []
    | some (here, rest) =>
      settling s here ++
        settlings queue net measure fuel (settle queue net measure here { s with frontier := rest })

/-- The nodes that a search settles, in order. -/
def settledBy (queue : Queue (Reached α) σ) (net : Network) (measure : EdgeId → α)
    (source : NodeId) : List NodeId :=
  settlings queue net measure (net.edgeCount + 1) (start queue net source)

section Run

variable (lawful : queue.Lawful (Reached.Legal net measure source) Reached.cheaper Holds)
  (sound : net.Sound) (law : CostOrder net measure source)

include lawful sound law

/-- One turn of the loop uses up one entry of the frontier, and the edges of the node that it
settles bring in no more than there are of them. -/
theorem Inv.turn (inv : Inv net measure source s order (here ::ₘ others)) {rest : σ}
    (holds : Holds rest others) (least : ∀ y ∈ others, AtMost here.cost y.cost)
    (tight : CostOrder.Growing net measure source →
      Tight net measure s order (here ::ₘ others) []) :
    ∃ waiting',
      Inv net measure source (Dijkstra.settle queue net measure here { s with frontier := rest })
        (order ++ settling s here) waiting' ∧
      Holds (Dijkstra.settle queue net measure here { s with frontier := rest }).frontier waiting' ∧
      waiting'.card + pending net (order ++ settling s here) ≤ others.card + pending net order ∧
      (CostOrder.Growing net measure source →
        Tight net measure (Dijkstra.settle queue net measure here { s with frontier := rest })
          (order ++ settling s here) waiting' []) := by
  by_cases old : here.node ∈ order
  · have next : Dijkstra.settle queue net measure here { s with frontier := rest } =
        { s with frontier := rest } := if_pos (inv.settled.mpr old)
    rw [next, settling, if_pos (inv.settled.mpr old), List.append_nil]
    exact ⟨others, inv.drop old rest, holds, le_rfl, fun growing => (tight growing).drop rest⟩
  · have isOpen : ¬ s.isSettled here.node = true := fun h => old (inv.settled.mp h)
    have next : Dijkstra.settle queue net measure here { s with frontier := rest } = _ :=
      if_neg isOpen
    rw [next, settling, if_neg isOpen]
    have inside : here.node.index < net.nodeCount := by
      obtain ⟨⟨edges, walk, -⟩, -⟩ := inv.legal (Multiset.mem_cons_self here others)
      exact walk.inside sound inv.home
    have last {v : NodeId} (h : v ∈ order ++ [here.node]) :
        (order ++ [here.node]).idxOf v ≤ (order ++ [here.node]).idxOf here.node := by
      have small := List.idxOf_lt_length_iff.mpr h
      rw [List.length_append, List.length_singleton] at small
      rw [List.idxOf_append_of_notMem old, List.idxOf_cons_self]
      omega
    have mid : Midway Holds net measure source (order ++ [here.node]) here
        (others.card + (net.edgesFrom here.node).length)
        { s with settled := s.settled.setIfInBounds here.node.index true, frontier := rest }
        (net.edgesFrom here.node) others :=
      ⟨inv.settle law inside old least rest, holds, inv.cost_eq law old least, le_rfl,
        fun growing => (tight growing).settle inv sound law old least rest⟩
    obtain ⟨waiting, done⟩ := mid.relaxAll lawful sound law (by simp) last fun _ h => h
    refine ⟨waiting, done.inv, done.holds, ?_, fun growing => (done.tight growing).1⟩
    have room := done.card
    have := pending_settle sound old
    simp only [List.length_nil] at room
    omega

theorem Inv.run {fuel : Nat} (inv : Inv net measure source s order waiting)
    (holds : Holds s.frontier waiting) (enough : waiting.card + pending net order ≤ fuel)
    (tight : CostOrder.Growing net measure source → Tight net measure s order waiting []) :
    Inv net measure source (Dijkstra.run queue net measure fuel s)
        (order ++ settlings queue net measure fuel s) 0 ∧
      (CostOrder.Growing net measure source →
        Tight net measure (Dijkstra.run queue net measure fuel s)
          (order ++ settlings queue net measure fuel s) 0 []) := by
  induction fuel generalizing s order waiting with
  | zero =>
    have none : waiting = 0 := Multiset.card_eq_zero.mp (by omega)
    subst none
    rw [settlings, List.append_nil]
    exact ⟨inv, tight⟩
  | succ fuel ih =>
    rw [Dijkstra.run, settlings]
    cases popped : queue.popLeast? s.frontier with
    | none =>
      have none := lawful.popNone holds popped
      subst none
      simp only [List.append_nil]
      exact ⟨inv, tight⟩
    | some least =>
      obtain ⟨here, rest⟩ := least
      obtain ⟨others, rfl, held, least⟩ := lawful.popSome holds popped
      obtain ⟨waiting', inv', holds', fewer, tight'⟩ :=
        inv.turn lawful sound law held least tight
      rw [Multiset.card_cons] at enough
      simp only [← List.append_assoc]
      exact ih inv' holds' (by omega) tight'

omit sound in
theorem Inv.start (home : source.index < net.nodeCount) :
    Inv net measure source (Dijkstra.start queue net source) [] {⟨0, source⟩} ∧
      Holds (Dijkstra.start queue net source).frontier {⟨0, source⟩} := by
  have costAt (v : NodeId) :
      (PathTree.start source net.nodeCount : PathTree α).costAt v =
        if v = source then 0 else unreached := PathTree.costAt_start home v
  have legal : Reached.Legal net measure source ⟨0, source⟩ :=
    ⟨.start net measure source, law.zero_finite⟩
  have only {v : NodeId}
      (finite : isFinite ((Dijkstra.start queue net source).tree.costAt v) = true) :
      v = source := by
    by_contra away
    rw [Dijkstra.start, costAt, if_neg away, law.mark_not_finite] at finite
    cases finite
  refine ⟨?_, lawful.push lawful.empty legal⟩
  exact
    { nodes := PathTree.size_cost_start _ _
      entries := PathTree.size_entry_start _ _
      marks := by simp [Dijkstra.start]
      root := rfl
      home := home
      origin := by rw [Dijkstra.start, costAt, if_pos rfl]
      begun := .inr ⟨rfl, rfl⟩
      nodup := List.nodup_nil
      inside := fun h => absurd h List.not_mem_nil
      settled := by
        intro v
        by_cases small : v.index < net.nodeCount <;>
          simp [Dijkstra.start, State.isSettled, small]
      reached := fun h => absurd h List.not_mem_nil
      met := by
        intro v
        rw [Dijkstra.start, costAt]
        split
        · rename_i same
          exact .inr (same ▸ .start net measure source)
        · exact .inl rfl
      legal := by
        intro x hx
        rwa [Multiset.mem_singleton.mp hx]
      stale := by
        intro x hx
        rw [Multiset.mem_singleton.mp hx, Dijkstra.start, costAt, if_pos rfl]
        exact law.irrefl (Network.Attains.start net measure source).met
      queued := by
        intro v _ finite
        cases only finite
        rw [Dijkstra.start, costAt, if_pos rfl]
        exact Multiset.mem_singleton_self _
      parent := fun finite away => absurd (only finite) away
      bare := PathTree.entry?_start ..
      entered := by
        intro v via held
        rw [Dijkstra.start, PathTree.entry?_start] at held
        cases held }

omit lawful law sound in
theorem pending_nil_le (net : Network) : pending net [] ≤ net.edgeCount := by
  refine List.countP_le_length.trans_eq ?_
  simp [Network.edgeIds]

omit lawful law sound in
theorem Tight.start : Tight net measure (Dijkstra.start queue net source) [] waiting [] where
  lower h := absurd h List.not_mem_nil
  relaxed _ h := absurd h List.not_mem_nil
  held _ h := absurd h List.not_mem_nil
  ascending := List.Pairwise.nil
  lowest _ earlier := absurd earlier (by simp)

/-- When a search ends its frontier is empty. -/
theorem Inv.searched (home : source.index < net.nodeCount) :
    Inv net measure source
        (Dijkstra.run queue net measure (net.edgeCount + 1) (Dijkstra.start queue net source))
        (settledBy queue net measure source) 0 ∧
      (CostOrder.Growing net measure source →
        Tight net measure
          (Dijkstra.run queue net measure (net.edgeCount + 1) (Dijkstra.start queue net source))
          (settledBy queue net measure source) 0 []) := by
  obtain ⟨inv, holds⟩ := Inv.start lawful law home
  have enough : Multiset.card {(⟨0, source⟩ : Reached α)} + pending net [] ≤ net.edgeCount + 1 := by
    have few := pending_nil_le net
    rw [Multiset.card_singleton]
    omega
  exact inv.run lawful sound law holds enough fun _ => Tight.start

omit lawful law sound in
theorem searchWith_of_home (home : net.hasNode source = true) :
    searchWith queue net measure source =
      .ok (run queue net measure (net.edgeCount + 1) (start queue net source)).tree := by
  rw [searchWith, Network.checkNode, if_pos home]
  rfl

/-- The tree of a search whose frontier has run empty, after all that it has settled. -/
theorem searchWith_eq (home : net.hasNode source = true) :
    ∃ s : State α σ, searchWith queue net measure source = .ok s.tree ∧
      Inv net measure source s (settledBy queue net measure source) 0 ∧
      (CostOrder.Growing net measure source →
        Tight net measure s (settledBy queue net measure source) 0 []) := by
  have inside : source.index < net.nodeCount := by simpa [Network.hasNode] using home
  obtain ⟨inv, tight⟩ := Inv.searched lawful sound law inside
  exact ⟨_, searchWith_of_home home, inv, tight⟩

end Run

section Before

variable (lawful : queue.Lawful (Reached.Legal net measure source) Reached.before Holds)
  (sound : net.Sound) (law : CostOrder net measure source)

include lawful sound law

theorem searchWith_settled (home : net.hasNode source = true) :
    ∃ (s : State α σ) (order : List NodeId),
      searchWith queue net measure source = .ok s.tree ∧ Inv net measure source s order 0 ∧
      (CostOrder.Growing net measure source → Tight net measure s order 0 []) := by
  obtain ⟨s, found, inv, tight⟩ := searchWith_eq lawful.cheaper sound law home
  exact ⟨s, _, found, inv, tight⟩

theorem searchWith_ok (home : net.hasNode source = true) :
    ∃ (s : State α σ) (order : List NodeId),
      searchWith queue net measure source = .ok s.tree ∧ Inv net measure source s order 0 ∧
      (CostOrder.Additive net measure source → Tight net measure s order 0 []) := by
  obtain ⟨s, order, found, inv, tight⟩ := searchWith_settled lawful sound law home
  exact ⟨s, order, found, inv, fun additive => tight additive.growing⟩

end Before

/-! ## The tree found -/

/-- With the frontier empty, all that is reached has been settled. -/
theorem Inv.settled_of_finite (inv : Inv net measure source s order 0) {v : NodeId}
    (finite : isFinite (s.tree.costAt v) = true) : v ∈ order := by
  by_contra away
  exact absurd (inv.queued away finite) (Multiset.notMem_zero _)

theorem Inv.reached_iff (inv : Inv net measure source s order 0) {v : NodeId} :
    s.tree.isReached v = true ↔ v ∈ order := by
  rw [PathTree.isReached_iff, inv.nodes]
  constructor
  · rintro ⟨-, finite⟩
    exact inv.settled_of_finite finite
  · intro h
    exact ⟨inv.inside h, inv.reached h⟩

theorem Inv.rooted (inv : Inv net measure source s order 0) (law : CostOrder net measure source) :
    s.tree.Rooted net measure where
  nodes := inv.nodes
  origin := by
    rw [inv.root, PathTree.distance?_eq_some, inv.nodes]
    exact ⟨inv.home, inv.origin, law.zero_finite⟩
  ranked := by
    refine ⟨order.idxOf, ?_, ?_⟩
    · intro v reached
      have few := Id.length_le_of_nodup inv.nodup fun _ h => inv.inside h
      rw [inv.nodes]
      exact (List.idxOf_lt_length_iff.mpr (inv.reached_iff.mp reached)).trans_le few
    · intro v reached away
      rw [inv.root] at away
      obtain ⟨via, parent, -, first⟩ :=
        inv.parent (PathTree.isReached_iff.mp reached).2 away
      exact ⟨via, parent, first (inv.reached_iff.mp reached)⟩

/-- The end of every walk whose sum is finite has been reached, at no greater cost. -/
theorem Tight.bound (tight : Tight net measure s order 0 [])
    (inv : Inv net measure source s order 0) (law : CostOrder.Growing net measure source)
    {v : NodeId} {edges : List EdgeId} (walk : net.Walk source v edges)
    (finite : isFinite (walkCost measure edges) = true) :
    isFinite (s.tree.costAt v) = true ∧ AtMost (s.tree.costAt v) (walkCost measure edges) := by
  induction walk with
  | stay =>
    rw [inv.origin]
    exact ⟨law.zero_finite, law.atMost_refl (Network.Attains.start net measure source).met⟩
  | @go edges e edge walk found ih =>
    have along : net.Attains measure _ edge.source (walkCost measure edges) := ⟨edges, walk, rfl⟩
    have mark := net.met_mark measure source
    rw [walkCost_concat] at finite ⊢
    obtain ⟨reached, bound⟩ := ih (law.lt_of_atMost_of_lt along.met (along.go found).met mark
      (law.grows along found) finite)
    have source := inv.attains law.toCostOrder reached
    have relaxed := tight.relaxed found (inv.settled_of_finite reached) List.not_mem_nil
    have step := law.mono source along found bound
    have total := law.atMost_trans inv.met_costAt (source.go found).met (along.go found).met
      relaxed step
    exact ⟨law.lt_of_atMost_of_lt inv.met_costAt (along.go found).met mark total finite, total⟩

theorem Tight.bounded (tight : Tight net measure s order 0 [])
    (inv : Inv net measure source s order 0) (sound : net.Sound)
    (law : CostOrder.Additive net measure source) : s.tree.Bounded net measure := by
  intro v edges walk
  rw [inv.root] at walk
  obtain ⟨reached, bound⟩ := tight.bound inv law.growing walk (law.finite ⟨edges, walk, rfl⟩)
  refine ⟨PathTree.isReached_iff.mpr ⟨?_, reached⟩, bound⟩
  rw [inv.nodes]
  exact walk.inside sound inv.home

end RoadFlow.Dijkstra
