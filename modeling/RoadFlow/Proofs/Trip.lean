import Mathlib.Algebra.BigOperators.Group.List.Basic
import Mathlib.Algebra.Order.Floor.Semifield
import RoadFlow.Proofs.Cluster.Partition
import RoadFlow.Proofs.Decimal.Single
import RoadFlow.Proofs.Hour
import RoadFlow.Proofs.Matrix.Columns
import RoadFlow.Proofs.Matrix.Grid
import RoadFlow.Proofs.Matrix.Product
import RoadFlow.Proofs.Random.Range
import RoadFlow.Trip

/-!
# Trips of flows

A flow makes as many trips as the whole number nearest to it (`tripsOf`). Every pair makes its trips
in every hour, whatever the random stream gives: clusters have nodes, so no trip is left out
(`Drawing.exists_draw`). Flows that do not fit the clusters, or that make more than a million trips
in some hour, are refused before anything is drawn (`trips_of_flows`).
-/

namespace RoadFlow

/-- The pair and hour of a trip. -/
def Trip.cell (t : Trip) : OdPair × Hour := (⟨t.origin, t.destination⟩, t.hour)

namespace Trips

variable {net : Network} {c : Clustering} {made : List (OdPair × Hour)} {d : Drawing}
  {pair : OdPair} {hour : Hour}

/-! ## Draws -/

/-- A trip between nodes of its clusters, at a minute of its hour. -/
structure Placed (c : Clustering) (t : Trip) : Prop where
  origin : t.originNode ∈ c.membersOf t.origin
  destination : t.destinationNode ∈ c.membersOf t.destination
  minute : t.minute < 60

/-- Trips of some pairs and hours in their order, numbered from one. -/
structure Numbered (c : Clustering) (made : List (OdPair × Hour)) (trips : List Trip) : Prop where
  cells : trips.map Trip.cell = made
  numbers : trips.map Trip.number = List.range' 1 made.length
  placed : ∀ t ∈ trips, Placed c t

/-- A trip is drawn between clusters that have nodes. -/
theorem Drawing.exists_draw (d : Drawing) (origin : c.membersOf pair.origin ≠ #[])
    (destination : c.membersOf pair.destination ≠ #[]) (hour : Hour) :
    ∃ t : Trip, (d.draw c pair hour).trips = d.trips.push t ∧ t.number = d.trips.size + 1 ∧
      t.cell = (pair, hour) ∧ Placed c t := by
  obtain ⟨o, leaves, s, first⟩ := Random.Stream.exists_choose origin d.stream
  obtain ⟨e, enters, s', second⟩ := Random.Stream.exists_choose destination s
  have some_minute : 0 < 60 := by decide
  obtain ⟨minute, -, within, s'', third⟩ := Random.Stream.exists_byteIn some_minute s'
  refine ⟨⟨d.trips.size + 1, pair.origin, pair.destination, o, e, hour, minute⟩, ?_, rfl, rfl,
    leaves, enters, within⟩
  rw [Drawing.draw]
  split
  rename_i chosen
  cases first.symm.trans chosen
  split
  rename_i chosen
  cases second.symm.trans chosen
  split
  · rename_i from_origin to_destination
    cases from_origin
    cases to_destination
    rw [third]
  · -- Both clusters have nodes, so no trip is left out.
    rename_i left_out
    exact (left_out o e rfl rfl).elim

theorem Numbered.draw (numbered : Numbered c made d.trips.toList)
    (origin : c.membersOf pair.origin ≠ #[]) (destination : c.membersOf pair.destination ≠ #[]) :
    Numbered c (made ++ [(pair, hour)]) (d.draw c pair hour).trips.toList := by
  obtain ⟨t, drawn, number, cell, placed⟩ :=
    d.exists_draw origin destination hour
  have length : d.trips.size = made.length := by
    rw [← numbered.cells, List.length_map, Array.length_toList]
  rw [drawn, Array.toList_push]
  constructor
  · rw [List.map_append, numbered.cells, List.map_singleton, cell]
  · rw [List.map_append, numbered.numbers, List.map_singleton, number, length, List.length_append,
      List.length_singleton, List.range'_concat, Nat.one_mul, Nat.add_comm 1]
  · intro t' listed
    rcases List.mem_append.mp listed with earlier | last
    · exact numbered.placed t' earlier
    · rw [List.mem_singleton.mp last]
      exact placed

theorem Numbered.drawMany (numbered : Numbered c made d.trips.toList)
    (origin : c.membersOf pair.origin ≠ #[]) (destination : c.membersOf pair.destination ≠ #[])
    (n : Nat) :
    Numbered c (made ++ List.replicate n (pair, hour)) (d.drawMany c pair hour n).trips.toList := by
  induction n generalizing made d with
  | zero =>
    rw [List.replicate_zero, List.append_nil]
    exact numbered
  | succ n ih =>
    rw [List.replicate_succ, List.append_cons]
    exact ih (numbered.draw origin destination)

/-- The pairs and hours of the trips that are asked for. -/
def askedFor (asked : List (OdPair × Hour × Nat)) : List (OdPair × Hour) :=
  asked.flatMap fun (pair, hour, n) => List.replicate n (pair, hour)

/-- All trips that are asked for are drawn, and no others. -/
theorem Numbered.run {asked : List (OdPair × Hour × Nat)}
    (numbered : Numbered c made d.trips.toList)
    (filled : ∀ cell ∈ asked,
      c.membersOf cell.1.origin ≠ #[] ∧ c.membersOf cell.1.destination ≠ #[]) :
    Numbered c (made ++ askedFor asked)
      (asked.foldl (fun d (pair, hour, n) => d.drawMany c pair hour n) d).trips.toList := by
  induction asked generalizing made d with
  | nil =>
    rw [askedFor, List.flatMap_nil, List.append_nil]
    exact numbered
  | cons cell asked ih =>
    rw [List.forall_mem_cons] at filled
    obtain ⟨⟨origin, destination⟩, filled⟩ := filled
    rw [askedFor, List.flatMap_cons, ← List.append_assoc, List.foldl_cons]
    exact ih (numbered.drawMany origin destination cell.2.2) filled

/-! ## Counts -/

/-- The whole number nearest to a flow, a half going up. A flow that is negative, infinite or not a
number makes no trips. -/
def tripsOf (flow : Float32) : Nat :=
  match flow.toModel.unpack with
  | .finite .positive mantissa power _ => (round (mantissa * 2 ^ power : ℚ)).toNat
  | _ => 0

/-- Half a unit added, and the fraction cut off. -/
theorem roundHalfUp_eq (mantissa : Nat) (power : Int) :
    (Decimal.Format.Exact.finite false mantissa power).roundHalfUp =
      (round (mantissa * 2 ^ power : ℚ)).toNat := by
  have den : (twoTo (-power).toNat : ℚ) ≠ 0 := Nat.cast_ne_zero.mpr (Nat.two_pow_pos _).ne'
  have quotient : (mantissa * 2 ^ power + 1 / 2 : ℚ) =
      (2 * (mantissa * twoTo power.toNat) + twoTo (-power).toNat : Nat) /
        (2 * twoTo (-power).toNat : Nat) := by
    have scaled : (2 : ℚ) ^ power = twoTo power.toNat / twoTo (-power).toNat := by
      rw [Decimal.zpow_eq_div, Decimal.cast_twoTo, Decimal.cast_twoTo]
    rw [scaled]
    push_cast
    field_simp
  rw [round_eq, Int.floor_toNat, quotient, Nat.floor_div_eq_div]
  rfl

/-- Trips are counted with 64 bits. -/
theorem count_eq (flow : Float32) : TripCount.count flow = min (tripsOf flow) (twoTo 64 - 1) := by
  show min (Decimal.Format.single.exact flow.toBits.toNat).roundHalfUp _ = _
  rw [Single.exact_single, tripsOf]
  cases flow.toModel.unpack with
  | notANumber => rfl
  | infinity sign => cases sign <;> rfl
  | zero sign =>
    cases sign with
    | negative => rfl
    | positive => rfl
  | finite sign mantissa power =>
    cases sign with
    | negative => rfl
    | positive => exact congrArg (min · _) (roundHalfUp_eq mantissa power)

theorem limit_lt_count {flow : Float32} :
    tripLimit < TripCount.count flow ↔ 1000000 < tripsOf flow := by
  have bits : 1000000 < twoTo 64 - 1 := by decide
  rw [count_eq, lt_min_iff]
  exact and_iff_left bits

theorem count_eq_tripsOf {flow : Float32} (few : tripsOf flow ≤ 1000000) :
    TripCount.count flow = tripsOf flow := by
  have bits : 1000000 ≤ twoTo 64 - 1 := by decide
  rw [count_eq, min_eq_left (few.trans bits)]

/-! ## Faults -/

variable {f : Flows Float32} {flow : Float32}

/-- Flows with a row for each pair of clusters and a column for each hour. -/
structure Between (f : Flows Float32) (c : Clustering) : Prop where
  clusters : f.clusterCount = c.clusterCount
  rows : f.pairs.rows = c.clusterCount * c.clusterCount
  cols : f.pairs.cols = hoursPerDay

/-- No flow makes too many trips. -/
def Few (f : Flows Float32) : Prop :=
  ∀ r h flow, f.pairs.get? r h = some flow → tripsOf flow ≤ 1000000

/-- The first pair and hour with too many trips is found by the trips that flows make. -/
theorem tooMany?_eq (f : Flows Float32) (z : Nat) :
    tooMany? f z = (f.pairs.cells.find? fun (_, _, flow) => 1000000 < tripsOf flow).bind
      fun (c, h, flow) =>
        if bound : h < hoursPerDay then some (.tooManyTrips (.ofColumn c z) ⟨h, bound⟩ flow)
        else none := by
  have same : (fun place : Nat × Nat × Float32 => decide (tripLimit < TripCount.count place.2.2)) =
      fun place => decide (1000000 < tripsOf place.2.2) :=
    funext fun _ => decide_eq_decide.mpr limit_lt_count
  exact congrArg (fun test => (f.pairs.cells.find? test).bind _) same

theorem tooMany?_eq_none {z : Nat} (cols : f.pairs.cols = hoursPerDay) :
    tooMany? f z = none ↔ Few f := by
  rw [tooMany?_eq]
  cases found : f.pairs.cells.find? _ with
  | none =>
    rw [Option.bind_none, eq_self_iff_true, true_iff]
    intro r h flow cell
    simpa using List.find?_eq_none.mp found _ (Grid.mem_cells.mpr cell)
  | some place =>
    obtain ⟨r, h, flow⟩ := place
    have cell := Grid.mem_cells.mp (List.mem_of_find?_eq_some found)
    have many : 1000000 < tripsOf flow := by simpa using List.find?_some found
    have bound : h < hoursPerDay := cols ▸ (Grid.lt_of_get? cell).2
    rw [Option.bind_some]
    dsimp only
    rw [dif_pos bound]
    constructor
    · nofun
    · intro few
      exact absurd (few r h flow cell) (Nat.not_le_of_lt many)

/-- The first flow that makes too many trips is the one that is reported. -/
theorem tooMany?_eq_first {z : Nat} (small : z ≤ Id.limit) (within : pair.Within z)
    (cell : f.pairs.get? (pair.column z) hour.index = some flow)
    (many : 1000000 < tripsOf flow)
    (first : ∀ r h x, f.pairs.get? r h = some x →
      r < pair.column z ∨ r = pair.column z ∧ h < hour.index → tripsOf x ≤ 1000000) :
    tooMany? f z = some (.tooManyTrips pair hour flow) := by
  have found : f.pairs.cells.find? (fun place => 1000000 < tripsOf place.2.2) =
      some (pair.column z, hour.index, flow) := by
    apply find?_eq_first Grid.cells_ordered (Grid.mem_cells.mpr cell)
    · simpa using many
    · rintro ⟨r, h, x⟩ member precedes
      simpa using first r h x (Grid.mem_cells.mp member) precedes
  rw [tooMany?_eq, found, Option.bind_some]
  dsimp only
  rw [dif_pos hour.index_lt, OdPair.ofColumn_eq within.column_lt small, within.ofIndex_column]

theorem fault?_eq_none : fault? f c = none ↔ Between f c ∧ Few f := by
  rw [fault?]
  by_cases clusters : f.clusterCount = c.clusterCount
  · by_cases shape : f.pairs.rows = c.clusterCount * c.clusterCount ∧ f.pairs.cols = hoursPerDay
    · have between : Between f c := ⟨clusters, shape.1, shape.2⟩
      simp only [clusters, shape.1, shape.2, ne_eq, not_true_eq_false, or_self, if_false]
      rw [tooMany?_eq_none shape.2, and_iff_right between]
    · rw [if_neg (not_not.mpr clusters), if_pos (not_and_or.mp shape)]
      constructor
      · nofun
      · intro given
        exact absurd ⟨given.1.rows, given.1.cols⟩ shape
  · rw [if_pos clusters]
    constructor
    · nofun
    · intro given
      exact absurd given.1.clusters clusters

/-! ## Trips -/

variable {s : Random.Stream} {trips : List Trip}

/-- Trips of some flows: as many for each pair and hour as the flow makes, origin by origin,
destination by destination and hour by hour, numbered from one. -/
structure Drawn (f : Flows Float32) (c : Clustering) (trips : List Trip) : Prop where
  numbered : Numbered c (c.clusters.flatMap fun origin => c.clusters.flatMap fun destination =>
    Hour.all.flatMap fun hour =>
      List.replicate (tripsOf (f.flow ⟨origin, destination⟩ hour))
        (⟨origin, destination⟩, hour)) trips
  count {pair : OdPair} (hour : Hour) : pair.Within c.clusterCount →
    ∃ flow, f.pairs.get? (pair.column c.clusterCount) hour.index = some flow ∧
      (trips.countP fun t => t.cell = (pair, hour)) = tripsOf flow

theorem Between.get? (between : Between f c) (within : pair.Within c.clusterCount) (hour : Hour) :
    f.pairs.get? (pair.column c.clusterCount) hour.index = some (f.flow pair hour) := by
  have row : pair.column c.clusterCount < f.pairs.rows := between.rows ▸ within.column_lt
  rw [Flows.flow, between.clusters]
  exact Grid.get?_eq row (between.cols ▸ hour.index_lt)

/-- Flows that are accepted are counted as the trips that they make. -/
theorem count_flow (between : Between f c) (few : Few f) (within : pair.Within c.clusterCount)
    (hour : Hour) : TripCount.count (f.flow pair hour) = tripsOf (f.flow pair hour) :=
  count_eq_tripsOf (few _ _ _ (between.get? within hour))

theorem askedFor_demand (between : Between f c) (few : Few f) : askedFor (demand f c) =
    c.clusters.flatMap fun origin => c.clusters.flatMap fun destination =>
      Hour.all.flatMap fun hour =>
        List.replicate (tripsOf (f.flow ⟨origin, destination⟩ hour))
          (⟨origin, destination⟩, hour) := by
  simp only [askedFor, demand, List.flatMap_assoc, List.flatMap_map]
  refine List.flatMap_congr fun origin leaves => List.flatMap_congr fun destination enters => ?_
  have within : OdPair.Within ⟨origin, destination⟩ c.clusterCount :=
    ⟨Clustering.mem_clusters.mp leaves, Clustering.mem_clusters.mp enters⟩
  refine List.flatMap_congr fun hour _ => ?_
  rw [count_flow between few within]

theorem within_demand {cell : OdPair × Hour × Nat} (asked : cell ∈ demand f c) :
    cell.1.Within c.clusterCount := by
  obtain ⟨origin, from_clusters, asked⟩ := List.mem_flatMap.mp asked
  obtain ⟨destination, to_clusters, asked⟩ := List.mem_flatMap.mp asked
  obtain ⟨hour, -, rfl⟩ := List.mem_map.mp asked
  exact ⟨Clustering.mem_clusters.mp from_clusters, Clustering.mem_clusters.mp to_clusters⟩

/-- Of lists put one behind the other, one alone holds an element. -/
theorem count_flatMap_of_only {ι β : Type} [DecidableEq ι] [BEq β] [LawfulBEq β]
    {keys : List ι} {lists : ι → List β} {x : β} {key : ι} (nodup : keys.Nodup) (member : key ∈ keys)
    (only : ∀ other ∈ keys, x ∈ lists other → other = key) :
    (keys.flatMap lists).count x = (lists key).count x := by
  have elsewhere : ∀ other ≠ key, other ∈ keys → (List.count x ∘ lists) other = 0 := by
    intro other different listed
    apply List.count_eq_zero.mpr
    intro holds
    exact different (only other listed holds)
  rw [List.count_flatMap, List.sum_map_eq_nsmul_single key _ elsewhere,
    List.count_eq_one_of_mem nodup member, one_nsmul]
  rfl

theorem count_askedFor (between : Between f c) (few : Few f) (within : pair.Within c.clusterCount)
    (hour : Hour) : (askedFor (demand f c)).count (pair, hour) = tripsOf (f.flow pair hour) := by
  rw [askedFor_demand between few, count_flatMap_of_only c.nodup_clusters (Clustering.mem_clusters.mpr within.1),
    count_flatMap_of_only c.nodup_clusters (Clustering.mem_clusters.mpr within.2),
    count_flatMap_of_only Hour.nodup_all (Hour.mem_all hour), List.count_replicate_self]
  · intro other _ holds
    exact (Prod.mk.inj (List.eq_of_mem_replicate holds)).2.symm
  · intro other _ holds
    obtain ⟨h, -, holds⟩ := List.mem_flatMap.mp holds
    exact (OdPair.mk.inj (Prod.mk.inj (List.eq_of_mem_replicate holds)).1).2.symm
  · intro other _ holds
    obtain ⟨destination, -, holds⟩ := List.mem_flatMap.mp holds
    obtain ⟨h, -, holds⟩ := List.mem_flatMap.mp holds
    exact (OdPair.mk.inj (Prod.mk.inj (List.eq_of_mem_replicate holds)).1).1.symm

theorem Numbered.drawn (between : Between f c) (few : Few f)
    (numbered : Numbered c (askedFor (demand f c)) trips) : Drawn f c trips where
  numbered := askedFor_demand between few ▸ numbered
  count {pair} hour within := by
    refine ⟨_, between.get? within hour, ?_⟩
    have made := count_askedFor between few within hour
    rw [← numbered.cells, List.count_eq_countP, List.countP_map] at made
    rw [← made]
    apply List.countP_congr
    intro t _
    simp

/-- What drawing trips from some flows comes to. -/
structure Outcome (f : Flows Float32) (c : Clustering) (s : Random.Stream)
    (result : Random.Stream × Except (FitFault Float32) (Array Trip)) : Prop where
  refused : (∃ fault, result.2 = .error fault) ↔
    f.clusterCount ≠ c.clusterCount ∨
    ¬ (f.pairs.rows = c.clusterCount * c.clusterCount ∧ f.pairs.cols = hoursPerDay) ∨
    ∃ r h flow, f.pairs.get? r h = some flow ∧ 1000000 < tripsOf flow
  /-- Nothing is drawn for flows that are refused. -/
  undrawn {fault : FitFault Float32} : result.2 = .error fault → result.1 = s
  clusters : f.clusterCount ≠ c.clusterCount →
    result.2 = .error (.shape ⟨"flow clusters", c.clusterCount, f.clusterCount⟩)
  shape : f.clusterCount = c.clusterCount →
    ¬ (f.pairs.rows = c.clusterCount * c.clusterCount ∧ f.pairs.cols = hoursPerDay) →
    result.2 = .error (.shape ⟨"flow rows", c.clusterCount * c.clusterCount, f.pairs.rows⟩)
  /-- The first flow that makes too many trips is reported. -/
  tooMany {pair : OdPair} {hour : Hour} {flow : Float32} : Between f c → pair.Within c.clusterCount →
    f.pairs.get? (pair.column c.clusterCount) hour.index = some flow →
    1000000 < tripsOf flow →
    (∀ r h x, f.pairs.get? r h = some x →
      r < pair.column c.clusterCount ∨ r = pair.column c.clusterCount ∧ h < hour.index →
      tripsOf x ≤ 1000000) →
    result.2 = .error (.tooManyTrips pair hour flow)
  drawn {trips : Array Trip} : result.2 = .ok trips → Drawn f c trips.toList

theorem sample_refused {fault : FitFault Float32} (found : fault? f c = some fault) :
    sample f c s = (s, .error fault) := by
  rw [sample, found]

theorem sample_drawn (built : c.Built net) (fine : fault? f c = none) :
    ∃ trips, (sample f c s).2 = .ok trips ∧ Drawn f c trips.toList := by
  obtain ⟨labels, -, grouped, inside⟩ := built.grouped
  have parts := Clustering.partitions grouped rfl inside
  have start : Numbered c [] (Drawing.mk #[] s).trips.toList := ⟨rfl, rfl, nofun⟩
  have filled : ∀ cell ∈ demand f c,
      c.membersOf cell.1.origin ≠ #[] ∧ c.membersOf cell.1.destination ≠ #[] := by
    intro cell asked
    obtain ⟨origin, destination⟩ := within_demand asked
    exact ⟨(parts.members origin).1, (parts.members destination).1⟩
  have numbered := start.run filled
  rw [List.nil_append] at numbered
  obtain ⟨between, few⟩ := fault?_eq_none.mp fine
  refine ⟨_, ?_, numbered.drawn between few⟩
  rw [sample, fine]

/-- Flows are refused, and nothing is drawn for them, exactly if they do not fit the clusters or make
too many trips for some pair and hour. All other flows give the trips that they make, between nodes of
their clusters, in the order of pairs and hours. -/
theorem trips_of_flows (built : c.Built net) (f : Flows Float32) (s : Random.Stream) :
    Outcome f c s (sample f c s) where
  refused := by
    have accepted : fault? f c = none ↔ ¬ (f.clusterCount ≠ c.clusterCount ∨
        ¬ (f.pairs.rows = c.clusterCount * c.clusterCount ∧ f.pairs.cols = hoursPerDay) ∨
        ∃ r h flow, f.pairs.get? r h = some flow ∧ 1000000 < tripsOf flow) := by
      rw [fault?_eq_none]
      push Not
      constructor
      · rintro ⟨between, few⟩
        exact ⟨between.clusters, ⟨between.rows, between.cols⟩, few⟩
      · rintro ⟨clusters, ⟨rows, cols⟩, few⟩
        exact ⟨⟨clusters, rows, cols⟩, few⟩
    rw [← not_iff_not, ← accepted]
    cases found : fault? f c with
    | none =>
      obtain ⟨trips, given, -⟩ := sample_drawn (s := s) built found
      simp [given]
    | some fault => simp [sample_refused found]
  undrawn refused := by
    cases found : fault? f c with
    | none =>
      obtain ⟨trips, given, -⟩ := sample_drawn (s := s) built found
      rw [given] at refused
      cases refused
    | some fault => rw [sample_refused found]
  clusters different := by
    have found : fault? f c = some _ := if_pos different
    rw [sample_refused found]
  shape same different := by
    have found : fault? f c = some _ :=
      (if_neg (not_not.mpr same)).trans (if_pos (not_and_or.mp different))
    rw [sample_refused found]
  tooMany {pair hour flow} between within cell many first := by
    have found : fault? f c = some (.tooManyTrips pair hour flow) := by
      rw [fault?, if_neg (not_not.mpr between.clusters),
        if_neg (by simp [between.rows, between.cols])]
      exact tooMany?_eq_first built.sound.small within cell many first
    rw [sample_refused found]
  drawn given := by
    cases found : fault? f c with
    | none =>
      obtain ⟨trips, drawn, holds⟩ := sample_drawn (s := s) built found
      rw [drawn] at given
      cases given
      exact holds
    | some fault =>
      rw [sample_refused found] at given
      cases given

/-- Two and a half from the first cluster to the second, flows that make no trips, and one more from
the third cluster to the first. -/
def sampleFlows (flow : Float32) : Flows Float32 where
  clusterCount := 3
  pairs := .ofFn 9 hoursPerDay fun r h =>
    if r = 1 ∧ h = 8 then 2.5
    else if r = 2 ∧ h = 0 then -3
    else if r = 3 ∧ h = 1 then 0 / 0
    else if r = 4 ∧ h = 2 then 1 / 0
    else if r = 5 ∧ h = 3 then 0.49
    else if r = 6 ∧ h = 4 then flow
    else 0
  bias := none
  loss := 0
  mad := 0
  step := 0

/-- Two and a half make three trips and a half makes one; what is negative, infinite or not a number
makes none. A flow that is too large is named, and nothing is drawn. -/
theorem trips_of_flows_sample :
    Clustering.sample.Built Network.sample ∧
    (∃ trips, (sample (sampleFlows 0.5) .sample (.ofSeed 7)).2 = .ok trips ∧
      Drawn (sampleFlows 0.5) .sample trips.toList ∧
      trips.toList.map Trip.cell =
        .replicate 3 (⟨⟨0⟩, ⟨1⟩⟩, ⟨8, by decide⟩) ++ [(⟨⟨2⟩, ⟨0⟩⟩, ⟨4, by decide⟩)]) ∧
    sample (sampleFlows 1e19) .sample (.ofSeed 7) =
      (.ofSeed 7, .error (.tooManyTrips ⟨⟨2⟩, ⟨0⟩⟩ ⟨4, by decide⟩ 1e19)) := by
  have built := Clustering.sample_built
  refine ⟨built, ?_, ?_⟩
  · have outcome := trips_of_flows built (sampleFlows 0.5) (.ofSeed 7)
    cases given : (sample (sampleFlows 0.5) .sample (.ofSeed 7)).2 with
    | error fault =>
      rcases outcome.refused.mp ⟨fault, given⟩ with different | different | ⟨r, h, flow, cell, large⟩
      · exact absurd rfl different
      · exact absurd ⟨rfl, rfl⟩ different
      · obtain ⟨row, col⟩ := Grid.lt_of_get? cell
        have few : ∀ r < 9, ∀ h < 24, ((sampleFlows 0.5).pairs.get? r h).all (tripsOf · ≤ 1000000) := by
          decide +kernel
        have small := few r row h col
        rw [cell, Option.all_some, decide_eq_true_iff] at small
        exact absurd large (Nat.not_lt_of_le small)
    | ok trips =>
      have drawn := outcome.drawn given
      refine ⟨trips, rfl, drawn, ?_⟩
      rw [drawn.numbered.cells]
      decide +kernel
  · have outcome := trips_of_flows built (sampleFlows 1e19) (.ofSeed 7)
    have refused : (sample (sampleFlows 1e19) .sample (.ofSeed 7)).2 =
        .error (.tooManyTrips ⟨⟨2⟩, ⟨0⟩⟩ ⟨4, by decide⟩ 1e19) := by
      apply outcome.tooMany ⟨rfl, rfl, rfl⟩ ⟨by decide, by decide⟩ rfl
      · decide +kernel
      · intro r h x cell earlier
        obtain ⟨row, col⟩ := Grid.lt_of_get? cell
        have few : ∀ r < 9, ∀ h < 24, r < 6 ∨ r = 6 ∧ h < 4 →
            ((sampleFlows 1e19).pairs.get? r h).all (tripsOf · ≤ 1000000) := by
          decide +kernel
        have small := few r row h col earlier
        rw [cell, Option.all_some, decide_eq_true_iff] at small
        exact small
    exact Prod.ext (outcome.undrawn refused) refused

end Trips

end RoadFlow
