import RoadFlow.Proofs.Network.Adjacency
import RoadFlow.Proofs.Route.Dijkstra
import RoadFlow.Proofs.Route.Rounding

/-!
# Turns of a least-cost search

A search takes one entry out of its frontier in each turn, and relaxes the edges of its node unless
the node is settled. What is settled stays as it is whatever the queue and the costs are
(`relax_keeps`, `history_pairwise`). With a queue that gives out entries of least cost, the entry of
an open node is at the cost held for it (`Ready.opens`) and the turns that a search is given suffice
(`Ready.popLeast?_run`); with sums that never go down, nodes are settled in order of cost
(`settling_of_lawful`). Queues that order entries by node too give out the same ones in every turn,
so that they lead to the same tree (`searchWith_congr`).
-/

namespace RoadFlow.Dijkstra

open PathCost

variable {α σ τ : Type} [PathCost α] {queue : Queue (Reached α) σ} {net : Network}
  {measure : EdgeId → α} {source : NodeId} {s : State α σ} {fuel : Nat}

/-! ## Turns -/

/-- A turn of the loop: the state before it, the entry given out and the frontier without it. -/
structure Turn (α σ : Type) where
  before : State α σ
  popped : Reached α
  rest : σ

namespace Turn

/-- The node of the entry is settled already. -/
def stale (t : Turn α σ) : Bool := t.before.isSettled t.popped.node

/-- The edges that are relaxed. -/
def edges (net : Network) (t : Turn α σ) : List EdgeId :=
  if t.stale then [] else net.edgesFrom t.popped.node

/-- The entry is out and its node is settled. -/
def opened (t : Turn α σ) : State α σ :=
  { t.before with
    settled :=
      if t.stale then t.before.settled
      else t.before.settled.setIfInBounds t.popped.node.index true
    frontier := t.rest }

def after (queue : Queue (Reached α) σ) (net : Network) (measure : EdgeId → α) (t : Turn α σ) :
    State α σ :=
  settle queue net measure t.popped { t.before with frontier := t.rest }

/-- The states of a turn: before it, with the node settled, and behind each relaxed edge. -/
def states (queue : Queue (Reached α) σ) (net : Network) (measure : EdgeId → α) (t : Turn α σ) :
    List (State α σ) :=
  t.before :: (t.edges net).scanl (relax queue net measure t.popped) t.opened

theorem after_eq (queue : Queue (Reached α) σ) (net : Network) (measure : EdgeId → α)
    (t : Turn α σ) :
    t.after queue net measure =
      (t.edges net).foldl (relax queue net measure t.popped) t.opened := by
  unfold after settle edges opened
  cases old : t.stale with
  | true => exact if_pos old
  | false =>
    have isOpen : ¬ t.before.isSettled t.popped.node = true := by simpa [stale] using old
    exact if_neg isOpen

end Turn

/-- The turns of a run. -/
def turns (queue : Queue (Reached α) σ) (net : Network) (measure : EdgeId → α) :
    Nat → State α σ → List (Turn α σ)
  | 0, _ => []
  | fuel + 1, s =>
    match queue.popLeast? s.frontier with
    | none => []
    | some (here, rest) =>
      let t : Turn α σ := ⟨s, here, rest⟩
      t :: turns queue net measure fuel (t.after queue net measure)

/-- The entries that are not stale, in the order in which their nodes are settled. -/
def settledIn (turns : List (Turn α σ)) : List (Reached α) :=
  (turns.filter fun t => !t.stale).map (·.popped)

/-- All states of a run, the last of them at its end. -/
def history (queue : Queue (Reached α) σ) (net : Network) (measure : EdgeId → α) (fuel : Nat)
    (s : State α σ) : List (State α σ) :=
  (turns queue net measure fuel s).flatMap (Turn.states queue net measure) ++
    [run queue net measure fuel s]

/-- A run without turns, or a turn and the run behind it. -/
theorem run_cases (queue : Queue (Reached α) σ) (net : Network) (measure : EdgeId → α) (fuel : Nat)
    (s : State α σ) :
    queue.popLeast? s.frontier = none ∧
      turns queue net measure (fuel + 1) s = [] ∧ run queue net measure (fuel + 1) s = s ∨
    ∃ t : Turn α σ, t.before = s ∧ queue.popLeast? s.frontier = some (t.popped, t.rest) ∧
      turns queue net measure (fuel + 1) s =
        t :: turns queue net measure fuel (t.after queue net measure) ∧
      run queue net measure (fuel + 1) s =
        run queue net measure fuel (t.after queue net measure) := by
  rw [turns, run]
  cases popped : queue.popLeast? s.frontier with
  | none => exact .inl ⟨rfl, rfl, rfl⟩
  | some least => exact .inr ⟨⟨s, least.1, least.2⟩, rfl, rfl, rfl, rfl⟩

theorem length_turns_le (queue : Queue (Reached α) σ) (net : Network) (measure : EdgeId → α)
    (fuel : Nat) (s : State α σ) : (turns queue net measure fuel s).length ≤ fuel := by
  induction fuel generalizing s with
  | zero => exact le_rfl
  | succ fuel ih =>
    rcases run_cases queue net measure fuel s with ⟨-, none, -⟩ | ⟨t, -, -, more, -⟩
    · rw [none]
      exact Nat.zero_le _
    · rw [more]
      exact Nat.succ_le_succ (ih _)

/-- The turns settle what the run does. -/
theorem map_settledIn (queue : Queue (Reached α) σ) (net : Network) (measure : EdgeId → α)
    (fuel : Nat) (s : State α σ) :
    (settledIn (turns queue net measure fuel s)).map (·.node) =
      settlings queue net measure fuel s := by
  induction fuel generalizing s with
  | zero => rfl
  | succ fuel ih =>
    rw [turns, settlings]
    cases queue.popLeast? s.frontier with
    | none => rfl
    | some least =>
      obtain ⟨here, rest⟩ := least
      dsimp only
      rw [← ih, settling]
      cases old : s.isSettled here.node <;> simp [settledIn, Turn.stale, old, Turn.after]

omit [PathCost α] in
/-- The edges relaxed are those that leave the nodes settled. -/
theorem flatMap_edges (net : Network) (turns : List (Turn α σ)) :
    turns.flatMap (Turn.edges net) =
      ((settledIn turns).map (·.node)).flatMap net.edgesFrom := by
  induction turns with
  | nil => rfl
  | cons t turns ih =>
    rw [List.flatMap_cons, ih]
    cases old : t.stale <;> simp [settledIn, Turn.edges, old]

/-! ## What is settled stays -/

/-- What is settled in one state is settled in the other, with the same cost and entry. -/
structure State.Keeps (s t : State α σ) : Prop where
  settled : ∀ {v}, s.isSettled v = true → t.isSettled v = true
  costAt : ∀ {v}, s.isSettled v = true → t.tree.costAt v = s.tree.costAt v
  entry : ∀ {v}, s.isSettled v = true → PathTree.entry? t.tree v = s.tree.entry? v

namespace State

theorem Keeps.refl (s : State α σ) : s.Keeps s := ⟨id, fun _ => rfl, fun _ => rfl⟩

theorem Keeps.trans {s t u : State α σ} (first : s.Keeps t) (second : t.Keeps u) : s.Keeps u where
  settled h := second.settled (first.settled h)
  costAt h := (second.costAt (first.settled h)).trans (first.costAt h)
  entry h := (second.entry (first.settled h)).trans (first.entry h)

instance : Trans (Keeps (α := α) (σ := σ)) Keeps Keeps := ⟨Keeps.trans⟩

theorem keeps_reach {n : NodeId} (isOpen : s.isSettled n = false) (cost : α) (via : Entry)
    (frontier : σ) : s.Keeps { s with tree := s.tree.reach n cost via, frontier } := by
  have other {v : NodeId} (h : s.isSettled v = true) : v ≠ n := by
    rintro rfl
    rw [isOpen] at h
    cases h
  exact ⟨id, fun h => PathTree.costAt_reach_of_ne (other h) cost via,
    fun h => PathTree.entry?_reach_of_ne (other h) cost via⟩

end State

/-- Relaxing an edge changes nothing about settled nodes. -/
theorem relax_keeps (queue : Queue (Reached α) σ) (net : Network) (measure : EdgeId → α)
    (here : Reached α) (s : State α σ) (e : EdgeId) :
    s.Keeps (relax queue net measure here s e) := by
  unfold relax
  split
  · exact .refl s
  · dsimp only
    split
    · exact .refl s
    · rename_i edge found skipped
      have isOpen : s.isSettled edge.target = false := by simp_all
      split
      · exact State.keeps_reach isOpen _ _ _
      · split
        · exact State.keeps_reach isOpen _ _ _
        · exact .refl s

theorem Turn.opened_keeps (t : Turn α σ) : t.before.Keeps t.opened := by
  refine ⟨fun {v} settled => ?_, fun _ => rfl, fun _ => rfl⟩
  unfold opened State.isSettled at *
  dsimp only
  split
  · exact settled
  · rw [Array.getD_eq_getD_getElem?, Array.getElem?_setIfInBounds]
    rw [Array.getD_eq_getD_getElem?] at settled
    split
    · split
      · rfl
      · simp_all
    · exact settled

theorem Turn.opened_mem_states (queue : Queue (Reached α) σ) (net : Network) (measure : EdgeId → α)
    (t : Turn α σ) : t.opened ∈ t.states queue net measure :=
  List.mem_cons_of_mem _ (List.mem_of_mem_head? List.head?_scanl)

theorem Turn.states_chain (queue : Queue (Reached α) σ) (net : Network) (measure : EdgeId → α)
    (t : Turn α σ) : (t.states queue net measure).IsChain State.Keeps := by
  have relaxed (edges : List EdgeId) (s : State α σ) :
      (edges.scanl (relax queue net measure t.popped) s).IsChain State.Keeps := by
    induction edges generalizing s with
    | nil => exact .singleton s
    | cons e edges ih =>
      rw [List.scanl_cons]
      refine (ih _).cons fun next first => ?_
      rw [List.head?_scanl] at first
      cases first
      exact relax_keeps queue net measure t.popped s e
  refine (relaxed (t.edges net) t.opened).cons fun next first => ?_
  rw [List.head?_scanl] at first
  cases first
  exact t.opened_keeps

theorem Turn.getLast?_states (queue : Queue (Reached α) σ) (net : Network) (measure : EdgeId → α)
    (t : Turn α σ) :
    (t.states queue net measure).getLast? = some (t.after queue net measure) := by
  rw [states, List.getLast?_cons, List.getLast?_scanl, after_eq]
  rfl

theorem head?_history (queue : Queue (Reached α) σ) (net : Network) (measure : EdgeId → α)
    (fuel : Nat) (s : State α σ) : (history queue net measure fuel s).head? = some s := by
  unfold history
  cases fuel with
  | zero => rfl
  | succ fuel =>
    rcases run_cases queue net measure fuel s with ⟨-, none, same⟩ | ⟨t, rfl, -, more, -⟩
    · rw [none, same]
      rfl
    · rw [more]
      rfl

/-- In a run, whatever has been settled stays settled, at the cost and with the entry that it
had. -/
theorem history_pairwise (queue : Queue (Reached α) σ) (net : Network) (measure : EdgeId → α)
    (fuel : Nat) (s : State α σ) :
    (history queue net measure fuel s).Pairwise State.Keeps := by
  -- What one state keeps of the state just before it, it keeps of all.
  rw [← List.isChain_iff_pairwise]
  induction fuel generalizing s with
  | zero => exact .singleton s
  | succ fuel ih =>
    have start := head?_history queue net measure fuel
    unfold history at ih start ⊢
    rcases run_cases queue net measure fuel s with ⟨-, none, same⟩ | ⟨t, rfl, -, more, next⟩
    · rw [none, same]
      exact .singleton s
    · rw [more, next, List.flatMap_cons, List.append_assoc]
      refine (t.states_chain queue net measure).append (ih _) fun last atEnd first atStart => ?_
      rw [t.getLast?_states] at atEnd
      rw [start] at atStart
      cases atEnd
      cases atStart
      exact .refl _

theorem Turn.opened_keeps_run {t : Turn α σ} (mem : t ∈ turns queue net measure fuel s) :
    t.opened.Keeps (run queue net measure fuel s) := by
  have pairs := history_pairwise queue net measure fuel s
  have among : t.opened ∈ (turns queue net measure fuel s).flatMap (states queue net measure) :=
    List.mem_flatMap.mpr ⟨t, mem, t.opened_mem_states queue net measure⟩
  exact (List.pairwise_append.mp pairs).2.2 _ among _ List.mem_cons_self

/-! ## Entries of open nodes -/

variable {Holds : σ → Multiset (Reached α) → Prop}

/-- A state in which the invariants hold and the turns that are left suffice. -/
def Ready (Holds : σ → Multiset (Reached α) → Prop) (net : Network) (measure : EdgeId → α)
    (source : NodeId) (fuel : Nat) (s : State α σ) : Prop :=
  ∃ order waiting, Inv net measure source s order waiting ∧ Holds s.frontier waiting ∧
    waiting.card + pending net order ≤ fuel ∧
    (CostOrder.Growing net measure source → Tight net measure s order waiting [])

section Run

variable (lawful : queue.Lawful (Reached.Legal net measure source) Reached.cheaper Holds)
  (law : CostOrder net measure source)

include lawful

theorem Ready.popLeast?_zero (ready : Ready Holds net measure source 0 s) :
    queue.popLeast? s.frontier = none := by
  obtain ⟨order, waiting, -, holds, enough, -⟩ := ready
  obtain rfl : waiting = 0 := Multiset.card_eq_zero.mp (by omega)
  cases popped : queue.popLeast? s.frontier with
  | none => rfl
  | some least =>
    obtain ⟨others, same, -⟩ := lawful.popSome holds popped
    exact absurd same Multiset.zero_ne_cons

variable (sound : net.Sound)

include law sound

/-- The node of an entry that is given out is settled by then, and if it was open the entry is at
the cost held for it. -/
theorem Ready.opens {t : Turn α σ} (ready : Ready Holds net measure source fuel t.before)
    (popped : queue.popLeast? t.before.frontier = some (t.popped, t.rest)) :
    t.opened.isSettled t.popped.node = true ∧
      (t.stale = false → t.before.tree.costAt t.popped.node = t.popped.cost) := by
  obtain ⟨order, waiting, inv, holds, -, -⟩ := ready
  obtain ⟨others, rfl, -, least⟩ := lawful.popSome holds popped
  cases old : t.stale with
  | true =>
    have marks : t.opened.settled = t.before.settled := if_pos old
    refine ⟨?_, nofun⟩
    rw [State.isSettled, marks]
    exact old
  | false =>
    have isOpen : t.popped.node ∉ order := by
      rw [← inv.settled, ← Turn.stale, old]
      decide
    have inside : t.popped.node.index < t.before.settled.size := by
      obtain ⟨⟨edges, walk, -⟩, -⟩ := inv.legal (Multiset.mem_cons_self t.popped others)
      rw [inv.marks]
      exact walk.inside sound inv.home
    refine ⟨?_, fun _ => inv.cost_eq law isOpen least⟩
    simpa [State.isSettled, Turn.opened, old] using inside

theorem Ready.after {t : Turn α σ} (ready : Ready Holds net measure source (fuel + 1) t.before)
    (popped : queue.popLeast? t.before.frontier = some (t.popped, t.rest)) :
    Ready Holds net measure source fuel (t.after queue net measure) := by
  obtain ⟨order, waiting, inv, holds, enough, tight⟩ := ready
  obtain ⟨others, rfl, held, least⟩ := lawful.popSome holds popped
  obtain ⟨waiting, inv', holds', fewer, tight'⟩ := inv.turn lawful sound law held least tight
  rw [Multiset.card_cons] at enough
  exact ⟨_, waiting, inv', holds', by omega, tight'⟩

/-- No turn is wanting at the end of a run. -/
theorem Ready.popLeast?_run (ready : Ready Holds net measure source fuel s) :
    queue.popLeast? (run queue net measure fuel s).frontier = none := by
  induction fuel generalizing s with
  | zero => exact ready.popLeast?_zero lawful
  | succ fuel ih =>
    rcases run_cases queue net measure fuel s with ⟨none, -, same⟩ | ⟨t, rfl, popped, -, next⟩
    · rw [same]
      exact none
    · rw [next]
      exact ih (ready.after lawful law sound popped)

theorem Ready.opens_of_mem (ready : Ready Holds net measure source fuel s) {t : Turn α σ}
    (mem : t ∈ turns queue net measure fuel s) :
    t.opened.isSettled t.popped.node = true ∧
      (t.stale = false → t.before.tree.costAt t.popped.node = t.popped.cost) := by
  induction fuel generalizing s with
  | zero => cases mem
  | succ fuel ih =>
    rcases run_cases queue net measure fuel s with ⟨-, none, -⟩ | ⟨first, rfl, popped, more, -⟩
    · rw [none] at mem
      cases mem
    · rw [more] at mem
      rcases List.mem_cons.mp mem with rfl | later
      · exact ready.opens lawful law sound popped
      · exact ih (ready.after lawful law sound popped) later

/-- A node keeps the cost at which it is settled. -/
theorem Ready.costAt_run (ready : Ready Holds net measure source fuel s) {x : Reached α}
    (mem : x ∈ settledIn (turns queue net measure fuel s)) :
    (run queue net measure fuel s).tree.costAt x.node = x.cost := by
  obtain ⟨t, found, rfl⟩ := List.mem_map.mp mem
  obtain ⟨mem, isOpen⟩ := List.mem_filter.mp found
  obtain ⟨settled, current⟩ := ready.opens_of_mem lawful law sound mem
  exact ((Turn.opened_keeps_run mem).costAt settled).trans (current (by simpa using isOpen))

omit sound in
theorem Ready.start (home : source.index < net.nodeCount) :
    Ready Holds net measure source (net.edgeCount + 1) (Dijkstra.start queue net source) := by
  obtain ⟨inv, holds⟩ := Inv.start lawful law home
  refine ⟨[], _, inv, holds, ?_, fun _ => Tight.start⟩
  have few := pending_nil_le net
  rw [Multiset.card_singleton]
  omega

end Run

/-! ## Other queues -/

/-- The same tree and marks with another frontier. -/
def State.withFrontier (f : σ → τ) (s : State α σ) : State α τ := ⟨s.tree, s.settled, f s.frontier⟩

section Follows

variable {queue' : Queue (Reached α) τ} {f : σ → τ}
  (follows : queue.Follows Holds queue' f)

include follows

theorem relax_withFrontier (here : Reached α) (s : State α σ) (e : EdgeId) :
    relax queue' net measure here (s.withFrontier f) e =
      (relax queue net measure here s e).withFrontier f := by
  unfold relax
  cases net.edge? e with
  | none => rfl
  | some edge =>
    have marks : (s.withFrontier f).isSettled edge.target = s.isSettled edge.target := rfl
    have tree : (s.withFrontier f).tree = s.tree := rfl
    dsimp only
    rw [marks, tree]
    split
    · rfl
    · split
      · simp only [State.withFrontier, follows.push]
      · split <;> rfl

theorem foldl_relax_withFrontier (here : Reached α) (edges : List EdgeId) (s : State α σ) :
    edges.foldl (relax queue' net measure here) (s.withFrontier f) =
      (edges.foldl (relax queue net measure here) s).withFrontier f := by
  induction edges generalizing s with
  | nil => rfl
  | cons e edges ih => rw [List.foldl_cons, relax_withFrontier follows, ih, List.foldl_cons]

theorem settle_withFrontier (here : Reached α) (s : State α σ) :
    settle queue' net measure here (s.withFrontier f) =
      (settle queue net measure here s).withFrontier f := by
  unfold settle
  have marks : (s.withFrontier f).isSettled here.node = s.isSettled here.node := rfl
  rw [marks]
  split
  · rfl
  · exact foldl_relax_withFrontier follows here (net.edgesFrom here.node)
      { s with settled := s.settled.setIfInBounds here.node.index true }

/-- A queue that follows another through a run leads to the same tree. -/
theorem Ready.run_withFrontier
    (lawful : queue.Lawful (Reached.Legal net measure source) Reached.cheaper Holds)
    (law : CostOrder net measure source) (sound : net.Sound)
    (ready : Ready Holds net measure source fuel s) :
    run queue' net measure fuel (s.withFrontier f) =
      (run queue net measure fuel s).withFrontier f := by
  induction fuel generalizing s with
  | zero => rfl
  | succ fuel ih =>
    -- The two frontiers give out the same entry because the first still holds legal ones only.
    obtain ⟨order, waiting, inv, holds, -⟩ := id ready
    have pops : queue'.popLeast? (s.withFrontier f).frontier =
        (queue.popLeast? s.frontier).map (Prod.map id f) := follows.pop holds
    rw [run, pops]
    rcases run_cases queue net measure fuel s with ⟨none, -, same⟩ | ⟨t, rfl, popped, -, next⟩
    · rw [none, same]
      rfl
    · rw [popped, next, ← ih (ready.after lawful law sound popped)]
      exact congrArg (run queue' net measure fuel)
        (settle_withFrontier follows t.popped { t.before with frontier := t.rest })

theorem start_withFrontier (net : Network) (source : NodeId) :
    (start queue net source).withFrontier f = start queue' net source := by
  rw [start, start, State.withFrontier, follows.push, follows.empty]

theorem searchWith_of_follows
    (lawful : queue.Lawful (Reached.Legal net measure source) Reached.cheaper Holds)
    (law : CostOrder net measure source) (sound : net.Sound) :
    searchWith queue' net measure source = searchWith queue net measure source := by
  by_cases home : net.hasNode source = true
  · have inside : source.index < net.nodeCount := by simpa [Network.hasNode] using home
    have ready := Ready.start lawful law inside
    rw [searchWith_of_home home, searchWith_of_home home, ← start_withFrontier follows,
      ready.run_withFrontier follows lawful law sound]
    rfl
  · rw [searchWith, searchWith, Network.checkNode, if_neg home]
    rfl

end Follows

/-- Queues that order entries by cost and node find the same tree, however they keep them. -/
theorem searchWith_congr {queue' : Queue (Reached α) τ} {Holds' : τ → Multiset (Reached α) → Prop}
    (lawful : queue.Lawful (Reached.Legal net measure source) Reached.before Holds)
    (lawful' : queue'.Lawful (Reached.Legal net measure source) Reached.before Holds')
    (law : CostOrder net measure source) (sound : net.Sound) :
    searchWith queue net measure source = searchWith queue' net measure source := by
  -- Neither queue follows the other, as each may keep its entries in its own way. Both follow the
  -- pair of them.
  have both := (Queue.both_lawful lawful lawful' law.decisive).cheaper
  have left := searchWith_of_follows (Queue.both_follows_left lawful lawful' law.decisive) both
    law sound
  have right := searchWith_of_follows (Queue.both_follows_right lawful lawful' law.decisive) both
    law sound
  exact left.trans right.symm

/-! ## Whole searches -/

/-- The turns of a search. -/
def turnsOf (queue : Queue (Reached α) σ) (net : Network) (measure : EdgeId → α)
    (source : NodeId) : List (Turn α σ) :=
  turns queue net measure (net.edgeCount + 1) (start queue net source)

/-- The state at the end of a search. -/
def lastOf (queue : Queue (Reached α) σ) (net : Network) (measure : EdgeId → α)
    (source : NodeId) : State α σ :=
  run queue net measure (net.edgeCount + 1) (start queue net source)

/-- What a search does from its first turn to its last. -/
structure Settling (queue : Queue (Reached α) σ) (net : Network) (measure : EdgeId → α)
    (source : NodeId) : Prop where
  /-- There are no turns left to take. -/
  ended : queue.popLeast? (lastOf queue net measure source).frontier = none
  few : (turnsOf queue net measure source).length ≤ net.edgeCount + 1
  ascending : (settledIn (turnsOf queue net measure source)).Pairwise fun x y =>
    AtMost x.cost y.cost
  opened : ∀ t ∈ turnsOf queue net measure source, t.opened.isSettled t.popped.node = true
  current : ∀ t ∈ turnsOf queue net measure source, t.stale = false →
    t.before.tree.costAt t.popped.node = t.popped.cost
  /-- What is settled in one state stays as it is in all later ones, within a turn and after it. -/
  kept : (history queue net measure (net.edgeCount + 1) (start queue net source)).Pairwise
    State.Keeps
  nodes : ((settledIn (turnsOf queue net measure source)).map (·.node)).Nodup
  edges : ((turnsOf queue net measure source).flatMap (Turn.edges net)).Nodup

theorem settling_of_lawful
    (lawful : queue.Lawful (Reached.Legal net measure source) Reached.cheaper Holds)
    (law : CostOrder.Growing net measure source) (sound : net.Sound)
    (home : source.index < net.nodeCount) : Settling queue net measure source := by
  have order := law.toCostOrder
  have ready := Ready.start lawful order home
  obtain ⟨inv, tight⟩ := Inv.searched lawful sound order home
  have settled : (settledIn (turnsOf queue net measure source)).map (·.node) =
      settledBy queue net measure source := map_settledIn ..
  have costs {x : Reached α} (mem : x ∈ settledIn (turnsOf queue net measure source)) :
      (lastOf queue net measure source).tree.costAt x.node = x.cost :=
    ready.costAt_run lawful order sound mem
  have nodes := inv.nodup
  have ascending := (tight law).ascending
  rw [← settled] at nodes ascending
  exact
    { ended := ready.popLeast?_run lawful order sound
      few := length_turns_le ..
      ascending := by
        refine (List.pairwise_map.mp ascending).imp_of_mem fun hx hy low => ?_
        rwa [← costs hx, ← costs hy]
      opened := fun t mem => (ready.opens_of_mem lawful order sound mem).1
      current := fun t mem => (ready.opens_of_mem lawful order sound mem).2
      kept := history_pairwise ..
      nodes
      edges := by
        rw [flatMap_edges]
        exact sound.nodup_edgesFrom nodes }

/-- With sums that keep their order and never go down, nodes are settled in order of cost, each once
and at the cost held for it, and what is settled stays. Each edge is relaxed at most once, so the
loop ends. The tree is that of every queue that gives out some least entry by cost and node. -/
theorem searchWith_settles (built : net.Built) (home : net.hasNode source = true)
    (law : CostOrder.Growing net measure source)
    (lawful : queue.Lawful (Reached.Legal net measure source) Reached.before Holds) :
    searchWith queue net measure source = .ok (lastOf queue net measure source).tree ∧
      Settling queue net measure source ∧
      ∀ {τ : Type} {queue' : Queue (Reached α) τ} {Holds' : τ → Multiset (Reached α) → Prop},
        queue'.Lawful (Reached.Legal net measure source) Reached.before Holds' →
          searchWith queue' net measure source = .ok (lastOf queue net measure source).tree := by
  have inside : source.index < net.nodeCount := by simpa [Network.hasNode] using home
  have found : searchWith queue net measure source = .ok (lastOf queue net measure source).tree :=
    searchWith_of_home home
  refine ⟨found, settling_of_lawful lawful.cheaper law built.sound inside, fun lawful' => ?_⟩
  exact (searchWith_congr lawful' lawful law.toCostOrder built.sound).trans found

/-- The lengths of a network in 64 bits and a heap, alone and beside another heap. -/
theorem searchWith_settles_sample :
    ∃ t, search Network.sample Network.sample.lengthOf ⟨0⟩ = .ok t ∧
      Settling (Heap.queue Reached.before) Network.sample Network.sample.lengthOf ⟨0⟩ ∧
      searchWith ((Heap.queue Reached.before).both (Heap.queue Reached.before)) Network.sample
        Network.sample.lengthOf ⟨0⟩ = .ok t := by
  have law := growing_lengths Network.sample_built.sound ⟨0⟩
  have heap := Heap.queue_lawful law.toCostOrder.ranks
  obtain ⟨found, settling, others⟩ :=
    searchWith_settles Network.sample_built (by decide) law heap
  exact ⟨_, found, settling, others (Queue.both_lawful heap heap law.toCostOrder.decisive)⟩

end RoadFlow.Dijkstra
