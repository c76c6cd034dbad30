import RoadFlow.Proofs.Hour
import RoadFlow.Proofs.Matrix.Product
import RoadFlow.Proofs.Network.Names
import RoadFlow.Proofs.Sensor.Target
import RoadFlow.Sensor.Counts

/-!
# Counts that add up

Rows of counts are added one by one to the counts of their edges and hours
(`foldlM_addObservation`), so in exact arithmetic a target holds sums, which no order of the rows
changes (`counts_of_rows`).
-/

namespace RoadFlow

namespace Target

variable {α : Type} [Scalar α] {counts : Array (Hourly α)} {o : Observation α}
  {observations : List (Observation α)} {e : EdgeId} {h : Hour}

/-- The count of an edge in an hour in a table of counts. -/
def cell (counts : Array (Hourly α)) (e : EdgeId) (h : Hour) : α :=
  h.entry (counts.getD e.index (Grid.zeros hoursPerDay))

theorem cell_replicate (size : Nat) :
    cell (Array.replicate size (Grid.zeros hoursPerDay : Hourly α)) e h = 0 := by
  have row : (Array.replicate size (Grid.zeros hoursPerDay : Hourly α)).getD e.index
      (Grid.zeros hoursPerDay) = Grid.zeros hoursPerDay := by
    by_cases inside : e.index < size <;> simp [Array.getD, inside]
  rw [cell, row, Grid.zeros, Hour.entry_replicate]

theorem cell_of_le (outside : counts.size ≤ e.index) : cell counts e h = 0 := by
  rw [cell, Array.getD_eq_getD_getElem?, Array.getElem?_eq_none outside, Option.getD_none,
    Grid.zeros, Hour.entry_replicate]

theorem cell_of_lt (inside : e.index < counts.size) :
    cell counts e h = h.entry counts[e.index] := by
  rw [cell, Array.getD_eq_getD_getElem?, Array.getElem?_eq_getElem inside, Option.getD_some]

/-- A count is added to the one of its edge and hour, and no other count changes. -/
theorem addObservation_ok (inside : o.edge.index < counts.size) :
    ∃ counts', addObservation counts o = .ok counts' ∧ counts'.size = counts.size ∧
      ∀ e h, cell counts' e h =
        if o.edge = e ∧ o.hour = h then cell counts e h + o.count else cell counts e h := by
  refine ⟨_, if_neg (Nat.not_le.mpr inside), Array.size_modify, ?_⟩
  intro e h
  by_cases held : e.index < counts.size
  · rw [cell_of_lt (by simpa using held), cell_of_lt held, Array.getElem_modify]
    by_cases edge : o.edge = e
    · subst edge
      rw [if_pos rfl, Hour.entry_set]
      by_cases hour : o.hour = h
      · subst hour
        rw [if_pos rfl, if_pos ⟨rfl, rfl⟩]
        rfl
      · rw [if_neg hour, if_neg (fun both => hour both.2)]
    · rw [if_neg (Id.index_ne edge), if_neg (fun both => edge both.1)]
  · have other : o.edge ≠ e := by
      rintro rfl
      exact held inside
    rw [if_neg (fun both => other both.1), cell_of_le (by simpa using held),
      cell_of_le (by simpa using held)]

/-- Counts are added up in their order. -/
theorem foldlM_addObservation (inside : ∀ o ∈ observations, o.edge.index < counts.size) :
    ∃ counts', observations.foldlM addObservation counts = .ok counts' ∧
      counts'.size = counts.size ∧ ∀ e h, cell counts' e h =
        ((observations.filter fun o => o.edge = e ∧ o.hour = h).map (·.count)).foldl (· + ·)
          (cell counts e h) := by
  induction observations generalizing counts with
  | nil => exact ⟨counts, rfl, rfl, fun _ _ => rfl⟩
  | cons o observations ih =>
    rw [List.forall_mem_cons] at inside
    obtain ⟨added, first, size, cells⟩ := addObservation_ok inside.1
    rw [← size] at inside
    obtain ⟨counts', rest, size', cells'⟩ := ih inside.2
    refine ⟨counts', ?_, size'.trans size, ?_⟩
    · rw [List.foldlM_cons, bind_eq_ok]
      exact ⟨added, first, rest⟩
    · intro e h
      rw [cells', cells]
      by_cases here : o.edge = e ∧ o.hour = h <;> simp [here]

/-- Two targets with the same counts and sensors are the same. -/
theorem ext_count {t u : Target α} (edges : t.edgeCount = u.edgeCount)
    (counts : ∀ e : EdgeId, e.index < u.edgeCount → ∀ h, t.count e h = u.count e h)
    (sensors : t.sensors = u.sensors) : t = u := by
  cases t with | mk rows sensed =>
  cases u with | mk rows' sensed' =>
  obtain rfl : sensed = sensed' := sensors
  congr 1
  apply Array.ext edges
  intro i held held'
  apply Hour.ext_entry
  intro h
  have same : cell rows ⟨i⟩ h = cell rows' ⟨i⟩ h := counts ⟨i⟩ held' h
  rwa [cell_of_lt held, cell_of_lt held'] at same

end Target

namespace Counts

/-! ## Rows -/

section

variable {α : Type} {net : Network} {row : CountRow α} {rows : List (CountRow α)}
  {o : Observation α} {e : EdgeId} {h : Hour}

/-- Whether the network has the edge that a row names. -/
def isKnown (net : Network) (row : CountRow α) : Bool := (net.findEdge? row.edge).isSome

/-- What a row is of: a count on an edge in an hour, if its edge is known and its hour is one. -/
def observation? (net : Network) (row : CountRow α) : Option (Observation α) :=
  (net.findEdge? row.edge).bind fun e =>
    if early : row.hour < hoursPerDay then some ⟨e, ⟨row.hour, early⟩, row.volume⟩ else none

/-- The rows of known edges have hours of the day. -/
def OnTime (net : Network) (rows : List (CountRow α)) : Prop :=
  ∀ row ∈ rows, isKnown net row = true → row.hour < hoursPerDay

/-- The volumes of the rows that name an edge in an hour. -/
def volumes (net : Network) (rows : List (CountRow α)) (e : EdgeId) (h : Hour) : List α :=
  (rows.filter fun row => net.NamesEdge row.edge e ∧ row.hour = h.index).map (·.volume)

theorem isKnown_iff (built : net.Built) :
    isKnown net row = true ↔ ∃ e, net.NamesEdge row.edge e := by
  simp only [isKnown, Option.isSome_iff_exists, built.findEdge?_iff]

theorem observation?_eq_some (built : net.Built) : observation? net row = some o ↔
    net.NamesEdge row.edge o.edge ∧ row.hour = o.hour.index ∧ row.volume = o.count := by
  rw [observation?, Option.bind_eq_some_iff]
  simp only [built.findEdge?_iff]
  constructor
  · rintro ⟨e, named, seen⟩
    by_cases early : row.hour < hoursPerDay
    · rw [dif_pos early] at seen
      cases seen
      exact ⟨named, rfl, rfl⟩
    · rw [dif_neg early] at seen
      cases seen
  · intro given
    rcases o with ⟨e, ⟨hour, early⟩, count⟩
    obtain ⟨named, rfl, rfl⟩ := given
    exact ⟨e, named, dif_pos early⟩

/-- A row of an unknown edge is passed over, whatever its hour. -/
theorem scan_unknown (unknown : isKnown net row = false)
    (rest : List (Except Csv.Fault (CountRow α))) :
    (scan net (.ok row :: rest)).observations = (scan net rest).observations ∧
      (scan net (.ok row :: rest)).fault = (scan net rest).fault := by
  have missed : net.findEdge? row.edge = none := by simpa [isKnown] using unknown
  simp [scan, missed]

theorem scan_early (seen : observation? net row = some o)
    (rest : List (Except Csv.Fault (CountRow α))) :
    (scan net (.ok row :: rest)).observations = o :: (scan net rest).observations ∧
      (scan net (.ok row :: rest)).fault = (scan net rest).fault := by
  obtain ⟨e, found, seen⟩ := Option.bind_eq_some_iff.mp seen
  by_cases early : row.hour < hoursPerDay
  · rw [dif_pos early] at seen
    cases seen
    simp [scan, found, Hour.ofNat, early]
  · rw [dif_neg early] at seen
    cases seen

theorem scan_late (known : isKnown net row = true) (late : hoursPerDay ≤ row.hour)
    (rest : List (Except Csv.Fault (CountRow α))) :
    scan net (.ok row :: rest) = ⟨[], [], some (.badHour ⟨row.hour⟩)⟩ := by
  obtain ⟨e, found⟩ := Option.isSome_iff_exists.mp known
  simp [scan, found, Hour.ofNat, Nat.not_lt.mpr late]

theorem observation?_unknown (unknown : isKnown net row = false) :
    observation? net row = none := by
  have missed : net.findEdge? row.edge = none := by simpa [isKnown] using unknown
  rw [observation?, missed, Option.bind_none]

theorem exists_observation? (known : isKnown net row = true) (early : row.hour < hoursPerDay) :
    ∃ o, observation? net row = some o := by
  obtain ⟨e, found⟩ := Option.isSome_iff_exists.mp known
  exact ⟨_, by rw [observation?, found, Option.bind_some, dif_pos early]⟩

/-- The scan goes on behind rows that are on time. -/
theorem scan_append (onTime : OnTime net rows)
    (rest : List (Except Csv.Fault (CountRow α))) :
    (scan net (rows.map .ok ++ rest)).observations =
        rows.filterMap (observation? net) ++ (scan net rest).observations ∧
      (scan net (rows.map .ok ++ rest)).fault = (scan net rest).fault := by
  induction rows with
  | nil => exact ⟨rfl, rfl⟩
  | cons row rows ih =>
    obtain ⟨early, onTime⟩ := List.forall_mem_cons.mp onTime
    obtain ⟨observations, fault⟩ := ih onTime
    rw [List.map_cons, List.cons_append]
    cases known : isKnown net row with
    | false =>
      obtain ⟨same, same'⟩ := scan_unknown known (rows.map .ok ++ rest)
      rw [same, same', List.filterMap_cons_none (observation?_unknown known)]
      exact ⟨observations, fault⟩
    | true =>
      obtain ⟨o, seen⟩ := exists_observation? known (early known)
      obtain ⟨next, same⟩ := scan_early seen (rows.map .ok ++ rest)
      rw [next, same, List.filterMap_cons_some seen, observations]
      exact ⟨rfl, fault⟩

/-- Rows of unknown edges change nothing that a target is made of. -/
theorem scan_filter (net : Network) (rows : List (CountRow α)) :
    (scan net ((rows.filter (isKnown net)).map .ok)).observations =
        (scan net (rows.map .ok)).observations ∧
      (scan net ((rows.filter (isKnown net)).map .ok)).fault = (scan net (rows.map .ok)).fault := by
  induction rows with
  | nil => exact ⟨rfl, rfl⟩
  | cons row rows ih =>
    rw [List.map_cons]
    cases known : isKnown net row with
    | false =>
      obtain ⟨same, same'⟩ := scan_unknown known (rows.map .ok)
      rw [same, same', List.filter_cons_of_neg (by simp [known])]
      exact ih
    | true =>
      rw [List.filter_cons_of_pos known, List.map_cons]
      by_cases early : row.hour < hoursPerDay
      · obtain ⟨o, seen⟩ := exists_observation? known early
        obtain ⟨next, same⟩ := scan_early seen (rows.map .ok)
        obtain ⟨next', same'⟩ := scan_early seen ((rows.filter (isKnown net)).map .ok)
        rw [next, next', same, same', ih.1, ih.2]
        exact ⟨rfl, rfl⟩
      · have late := Nat.not_lt.mp early
        rw [scan_late known late, scan_late known late]
        exact ⟨rfl, rfl⟩

/-- The counts on an edge in an hour are the volumes of the rows that name them. -/
theorem filter_observations (built : net.Built) :
    ((rows.filterMap (observation? net)).filter fun o => o.edge = e ∧ o.hour = h).map (·.count) =
      volumes net rows e h := by
  induction rows with
  | nil => rfl
  | cons row rows ih =>
    rw [volumes] at ih ⊢
    cases seen : observation? net row with
    | none =>
      have apart : ¬ (net.NamesEdge row.edge e ∧ row.hour = h.index) := by
        rintro ⟨named, hour⟩
        have some_seen := (observation?_eq_some built (o := ⟨e, h, row.volume⟩)).mpr
          ⟨named, hour, rfl⟩
        rw [seen] at some_seen
        cases some_seen
      rw [List.filterMap_cons_none seen, ih, List.filter_cons_of_neg (by simpa using apart)]
    | some o =>
      obtain ⟨named, hour, volume⟩ := (observation?_eq_some built).mp seen
      have here : net.NamesEdge row.edge e ∧ row.hour = h.index ↔ o.edge = e ∧ o.hour = h := by
        rw [hour, Hour.index_injective.eq_iff, and_congr_left_iff]
        intro _
        constructor
        · exact built.namesEdge_unique named
        · rintro rfl
          exact named
      rw [List.filterMap_cons_some seen, List.filter_cons, List.filter_cons]
      simp only [here]
      by_cases both : o.edge = e ∧ o.hour = h
      · rw [if_pos (by simpa using both), if_pos (by simpa using both), List.map_cons, List.map_cons,
          ih, volume]
      · rw [if_neg (by simpa using both), if_neg (by simpa using both), ih]

theorem mem_observations (built : net.Built) (onTime : OnTime net rows) :
    (∃ o ∈ rows.filterMap (observation? net), o.edge = e) ↔
      ∃ row ∈ rows, net.NamesEdge row.edge e := by
  constructor
  · rintro ⟨o, listed, rfl⟩
    obtain ⟨row, member, seen⟩ := List.mem_filterMap.mp listed
    exact ⟨row, member, ((observation?_eq_some built).mp seen).1⟩
  · rintro ⟨row, member, named⟩
    have early := onTime row member ((isKnown_iff built).mpr ⟨e, named⟩)
    have seen := (observation?_eq_some built (o := ⟨e, ⟨row.hour, early⟩, row.volume⟩)).mpr
      ⟨named, rfl, rfl⟩
    exact ⟨_, List.mem_filterMap.mpr ⟨row, member, seen⟩, rfl⟩

end

/-! ## Targets -/

/-- The target that some rows give. -/
def targetOf {α : Type} [Scalar α] (net : Network) (rows : List (CountRow α)) :
    Except (FitFault α) (Target α) :=
  (ofRows net (rows.map .ok)).2

variable {net : Network} {rows rows' : List (CountRow ℝ)} {t u : Target ℝ}

/-- A target of sums: each edge has in each hour the volumes of all rows that name them, and its
sensors are the edges that some row names. -/
structure AddedUp (net : Network) (rows : List (CountRow ℝ)) (t : Target ℝ) : Prop where
  edges : t.edgeCount = net.edgeCount
  count (e : EdgeId) (h : Hour) : e.index < net.edgeCount →
    t.count e h = (volumes net rows e h).sum
  ascending : Id.Ascending t.sensors
  observed (e : EdgeId) : e ∈ t.sensors ↔ ∃ row ∈ rows, net.NamesEdge row.edge e

theorem AddedUp.unique (first : AddedUp net rows t) (second : AddedUp net rows u) : t = u := by
  apply Target.ext_count (first.edges.trans second.edges.symm)
  · intro e inside h
    rw [second.edges] at inside
    rw [first.count e h inside, second.count e h inside]
  · apply first.ascending.ext second.ascending
    intro e
    rw [first.observed, second.observed]

theorem AddedUp.perm (sums : AddedUp net rows t) (perm : rows'.Perm rows) :
    AddedUp net rows' t where
  edges := sums.edges
  count e h inside := (sums.count e h inside).trans ((perm.filter _).map _).sum_eq.symm
  ascending := sums.ascending
  observed e := by
    rw [sums.observed]
    simp only [perm.mem_iff]

theorem OnTime.perm (onTime : OnTime net rows) (perm : rows'.Perm rows) : OnTime net rows' := by
  intro row member
  exact onTime row (perm.mem_iff.mp member)

/-- Rows that are on time add up. -/
theorem exists_addedUp (built : net.Built) (onTime : OnTime net rows) :
    ∃ t, targetOf net rows = .ok t ∧ AddedUp net rows t := by
  have all := scan_append onTime []
  rw [List.append_nil, scan, List.append_nil] at all
  let observations := rows.filterMap (observation? net)
  have inside : ∀ o ∈ observations, o.edge.index <
      (Array.replicate net.edgeCount (Grid.zeros hoursPerDay : Hourly ℝ)).size := by
    intro o listed
    obtain ⟨row, -, seen⟩ := List.mem_filterMap.mp listed
    rw [Array.size_replicate]
    exact ((observation?_eq_some built).mp seen).1.1
  obtain ⟨counts, run, size, cells⟩ := Target.foldlM_addObservation inside
  rw [Array.size_replicate] at size
  let t : Target ℝ := ⟨counts, Id.sortUnique (observations.map (·.edge))⟩
  have sums : AddedUp net rows t := {
    edges := size
    count := by
      intro e h _
      refine (cells e h).trans ?_
      rw [filter_observations built, Target.cell_replicate, List.sum_eq_foldl]
    ascending := Id.ascending_sortUnique _
    observed := by
      intro e
      rw [Id.mem_sortUnique, List.mem_map]
      exact mem_observations built onTime }
  have checked : t.check = .ok t := by
    apply Target.check_eq_ok.mpr
    refine ⟨rfl, ?_, ?_⟩
    · intro e sensor
      obtain ⟨row, -, named⟩ := (sums.observed e).mp sensor
      rw [sums.edges]
      exact named.1
    · intro e _
      apply List.findIdx?_eq_none_iff.mpr
      intro x _
      rfl
  refine ⟨t, ?_, sums⟩
  rw [targetOf, ofRows, target, all.1, all.2]
  show Target.ofObservations net.edgeCount observations = _
  rw [Target.ofObservations, bind_eq_ok]
  exact ⟨counts, run, checked⟩

/-- The first row of a known edge without an hour of the day is refused. -/
theorem targetOf_late {before after : List (CountRow ℝ)} {row : CountRow ℝ}
    (onTime : OnTime net before) (known : isKnown net row = true)
    (late : hoursPerDay ≤ row.hour) :
    targetOf net (before ++ row :: after) = .error (.badHour ⟨row.hour⟩) := by
  have stopped := (scan_append onTime ((row :: after).map .ok)).2
  rw [List.map_cons, scan_late known late] at stopped
  rw [targetOf, ofRows, target, List.map_append, List.map_cons, stopped]

theorem exists_first_late (late : ¬ OnTime net rows) :
    ∃ before row after, rows = before ++ row :: after ∧ OnTime net before ∧
      isKnown net row = true ∧ hoursPerDay ≤ row.hour := by
  obtain ⟨before, row, after, split, onTime, refused⟩ := exists_first late
  rw [Classical.not_imp, Nat.not_lt] at refused
  exact ⟨before, row, after, split, onTime, refused⟩

theorem targetOf_eq_ok (built : net.Built) :
    targetOf net rows = .ok t ↔ OnTime net rows ∧ AddedUp net rows t := by
  by_cases onTime : OnTime net rows
  · obtain ⟨sum, given, sums⟩ := exists_addedUp built onTime
    rw [given, and_iff_right onTime]
    constructor
    · rintro ⟨⟩
      exact sums
    · intro sums'
      rw [sums.unique sums']
  · obtain ⟨before, row, after, rfl, earlier, known, late⟩ := exists_first_late onTime
    rw [targetOf_late earlier known late]
    constructor
    · nofun
    · intro given
      exact absurd given.1 onTime

/-- In exact arithmetic rows of counts are refused if one of them names an edge of the network but
no hour of the day. Other rows add up. Those that name no edge of the network have no effect, and
their order does not matter. -/
theorem counts_of_rows (built : net.Built) (rows : List (CountRow ℝ)) :
    ((∃ fault, targetOf net rows = .error fault) ↔
      ∃ row ∈ rows, (∃ e, net.NamesEdge row.edge e) ∧ hoursPerDay ≤ row.hour) ∧
    (∀ t, targetOf net rows = .ok t → AddedUp net rows t) ∧
    (∀ rows', rows'.filter (isKnown net) = rows.filter (isKnown net) →
      targetOf net rows' = targetOf net rows) ∧
    ∀ rows' t, rows'.Perm rows → targetOf net rows = .ok t → targetOf net rows' = .ok t := by
  refine ⟨?_, ?_, ?_, ?_⟩
  · constructor
    · rintro ⟨fault, refused⟩
      have late : ¬ OnTime net rows := by
        intro onTime
        obtain ⟨t, given, -⟩ := exists_addedUp built onTime
        rw [given] at refused
        cases refused
      obtain ⟨before, row, after, rfl, -, known, outside⟩ := exists_first_late late
      exact ⟨row, by simp, (isKnown_iff built).mp known, outside⟩
    · rintro ⟨row, member, known, outside⟩
      cases result : targetOf net rows with
      | error fault => exact ⟨fault, rfl⟩
      | ok t =>
        have onTime := ((targetOf_eq_ok built).mp result).1
        have early := onTime row member ((isKnown_iff built).mpr known)
        exact absurd early (Nat.not_lt_of_le outside)
  · intro t given
    exact ((targetOf_eq_ok built).mp given).2
  · intro rows' same
    have filtered (rows : List (CountRow ℝ)) :
        targetOf net (rows.filter (isKnown net)) = targetOf net rows := by
      obtain ⟨observations, fault⟩ := scan_filter net rows
      rw [targetOf, targetOf, ofRows, ofRows, target, target, observations, fault]
    rw [← filtered rows', same, filtered rows]
  · intro rows' t perm given
    obtain ⟨onTime, sums⟩ := (targetOf_eq_ok built).mp given
    exact (targetOf_eq_ok built).mpr ⟨onTime.perm perm, sums.perm perm⟩

/-- Rows for the sample network in no order. One names an edge of another network, and an hour that
no day has; one edge was seen without traffic. -/
def sampleRows : List (CountRow ℝ) :=
  [⟨"ba", 8, 3⟩, ⟨"elsewhere", 99, 1⟩, ⟨"ab", 8, 5⟩, ⟨"loop", 0, 0⟩, ⟨"ab", 8, 2⟩]

theorem counts_of_rows_sample : Network.sample.Built ∧ ∃ t, targetOf .sample sampleRows = .ok t ∧
    t.edgeCount = 4 ∧ t.sensors = [⟨0⟩, ⟨2⟩, ⟨3⟩] ∧ t.count ⟨0⟩ ⟨8, by decide⟩ = 7 ∧
    t.count ⟨0⟩ ⟨9, by decide⟩ = 0 ∧ t.count ⟨2⟩ ⟨0, by decide⟩ = 0 := by
  obtain ⟨fails, sums, -⟩ := counts_of_rows Network.sample_built sampleRows
  cases result : targetOf .sample sampleRows with
  | error fault =>
    obtain ⟨row, member, ⟨⟨i⟩, inside, named⟩, late⟩ := fails.mp ⟨fault, result⟩
    have strange : ∀ row ∈ sampleRows, hoursPerDay ≤ row.hour → row.edge = "elsewhere" := by decide
    have nameless : ∀ i < 4, Network.sample.edgeName ⟨i⟩ ≠ "elsewhere" := by decide
    exact absurd (named.trans (strange row member late)) (nameless i inside)
  | ok t =>
    have sum := sums t result
    have counted (i : Nat) (hour : Hour) (inside : i < 4) := sum.count ⟨i⟩ hour inside
    refine ⟨Network.sample_built, t, rfl, sum.edges, ?_, ?_, ?_, ?_⟩
    · apply sum.ascending.ext (by simp [Id.Ascending])
      rintro ⟨_ | _ | _ | _ | i⟩
      · exact (sum.observed _).trans (by decide)
      · exact (sum.observed _).trans (by decide)
      · exact (sum.observed _).trans (by decide)
      · exact (sum.observed _).trans (by decide)
      · have outside : ¬ i + 4 < Network.sample.edgeCount := Nat.not_lt_of_le (Nat.le_add_left 4 i)
        rw [sum.observed]
        simp [Network.NamesEdge, outside]
    · have both : volumes .sample sampleRows ⟨0⟩ ⟨8, by decide⟩ = [5, 2] := rfl
      rw [counted 0 _ (by decide), both]
      norm_num
    · have none_then : volumes .sample sampleRows ⟨0⟩ ⟨9, by decide⟩ = [] := rfl
      rw [counted 0 _ (by decide), none_then, List.sum_nil]
    · have empty_one : volumes .sample sampleRows ⟨2⟩ ⟨0, by decide⟩ = [0] := rfl
      rw [counted 2 _ (by decide), empty_one, List.sum_singleton]

end Counts

end RoadFlow
