import RoadFlow.Command.Run
import RoadFlow.Proofs.Cluster.Labels
import RoadFlow.Proofs.Command.Solution

/-!
# What a run of the command leaves

No stage of a run changes the directory that paths are seen from (`Stage.Stays`), so the report is
where the arguments say, and the log that is written last leaves it as it is. A run that is
completed was planned, prepared and fitted, and its files tell of the fit
(`report_of_run_completed`). A run without steps shows that they need not list the flows that the
trips and the edge flows come from (`flows_unlisted_without_steps`).
-/

namespace RoadFlow.Command

open Storage (FileTree Location Path)
open Text.Utf8 (encode)

variable {α β : Type} {o : Options} {source : Source} {s s' : Session}

theorem Stage.take_eq_ok {ε : Type} {result : Except ε α} {fault : ε → CommandFault} {a : α} :
    (Stage.take result fault).run s = (.ok a, s') ↔ result = .ok a ∧ s = s' := by
  cases result with
  | ok b =>
    constructor
    · intro h
      cases h
      exact ⟨rfl, rfl⟩
    · rintro ⟨⟨⟩, rfl⟩
      rfl
  | error e =>
    constructor
    · intro h
      cases h
    · rintro ⟨⟨⟩, -⟩

/-! ## The directory that paths are seen from -/

/-- A stage after which paths are seen from where they were. -/
def Stage.Stays (x : Stage α) : Prop := ∀ s, (x.run s).2.place = s.place

namespace Stage.Stays

theorem bind {x : Stage α} {f : α → Stage β} (first : x.Stays) (rest : ∀ a, (f a).Stays) :
    (x >>= f).Stays := by
  intro s
  have split : (x >>= f).run s =
      Prod.casesOn (x.run s : Except CommandFault α × Session) fun result u =>
        ExceptT.bindCont f result u := rfl
  have here := first s
  rw [split]
  generalize (x.run s : Except CommandFault α × Session) = ran at here
  rcases ran with ⟨fault | a, u⟩
  · exact here
  · exact (rest a u).trans here

theorem pure (a : α) : (Pure.pure a : Stage α).Stays := fun _ => rfl

theorem throw (fault : CommandFault) : (MonadExcept.throw fault : Stage α).Stays := fun _ => rfl

theorem take {ε : Type} (result : Except ε α) (fault : ε → CommandFault) :
    (Stage.take result fault).Stays := by
  cases result with
  | ok a => exact pure a
  | error e => exact throw (fault e)

theorem note (records : Journal) : (Stage.note records).Stays := fun _ => rfl

theorem say (level : Level) (text : String) : (Stage.say level text).Stays := fun _ => rfl

theorem asking {f : Session → Stage α} (rest : ∀ s, (f s).Stays) : (get >>= f : Stage α).Stays :=
  bind (fun _ => rfl) rest

theorem updating {g : Session → Session} {f : Session → Stage α}
    (same : ∀ s, (g s).place = s.place) (rest : ∀ s, (f s).Stays) :
    (do let s ← get; set (g s); f s : Stage α).Stays :=
  fun s => (rest s (g s)).trans (same s)

theorem change (edit : FileTree → FileTree × Except Storage.Fault Unit)
    (fault : Storage.Fault → CommandFault) : (Stage.change edit fault).Stays :=
  updating (fun _ => rfl) fun _ => take _ _

end Stage.Stays

open Stage

theorem stays_writeOutput (o : Options) (name : String) (bytes : Storage.Bytes)
    (fault : String → Storage.Fault → CommandFault) : (writeOutput o name bytes fault).Stays :=
  .asking fun _ => .change _ _

theorem stays_openOutput (o : Options) : (openOutput o).Stays :=
  .asking fun _ => .bind (.change _ _) fun _ => stays_writeOutput _ _ _ _

theorem stays_readSettings (text : String) : (readSettings text).Stays := by
  refine .asking fun s => .bind (.take _ _) fun entry => ?_
  cases entry with
  | directory => exact .throw _
  | file bytes => exact .take _ _

theorem stays_gatherSettings (o : Options) : (gatherSettings o).Stays := by
  unfold gatherSettings
  extract_lets settle
  have settled (c : FitSettings Float32) : (settle c).Stays := by
    dsimp only [settle]
    cases (o.adjust c).fault? with
    | some fault => exact .throw _
    | none => exact .pure _
  cases o.settings with
  | some text => exact .bind (stays_readSettings text) settled
  | none => exact settled _

theorem stays_gather (source : Source) : (gather source).Stays := by
  cases source with
  | gridTown => exact .bind (.take _ _) fun _ => .bind (.take _ _) fun _ => .pure _
  | tables nodes links labels counts z =>
    exact .asking fun s => .bind (.take _ _) fun _ => .bind (.note _) fun _ =>
      .bind (.take _ _) fun _ => .bind (.take _ _) fun _ => .bind (.note _) fun _ =>
        .bind (.take _ _) fun _ => .pure _

theorem stays_obtainMatrix (o : Options) (g : Gathered) : (obtainMatrix o g).Stays := by
  refine .updating (fun _ => rfl) fun s => .bind (.note _) fun _ => .bind (.take _ _) fun m =>
    .bind ?_ fun _ => ?_
  · cases m.outcome <;> exact .say _ _
  · cases m.survey with
    | none => exact .pure _
    | some survey => exact .bind (.say _ _) fun _ => .pure _

theorem stays_settleTarget (g : Gathered) (m : AssignmentMatrix) : (settleTarget g m).Stays := by
  unfold settleTarget
  cases g.target with
  | some target => exact .pure _
  | none => exact .bind (.take _ _) fun _ => .take _ _

theorem stays_sceneOf (o : Options) (g : Gathered) : (sceneOf o g).Stays := by
  refine .bind (.say _ _) fun _ => .bind (stays_obtainMatrix o g) fun m =>
    .bind (stays_settleTarget g m) fun target => .bind (.say _ _) fun _ => ?_
  dsimp only
  split
  · exact .pure _
  · exact .bind (.say _ _) fun _ => .pure _

theorem stays_gatherScene (o : Options) (source : Source) : (gatherScene o source).Stays :=
  .bind (stays_gather source) fun g => stays_sceneOf o g

theorem stays_fitScene (o : Options) (c : FitSettings Float32) (scene : Scene) :
    (fitScene o c scene).Stays := by
  refine .updating (fun _ => rfl) fun s => .bind (.take _ _) fun report =>
    .bind (fun _ => rfl) fun _ => .bind (.note _) fun _ => ?_
  dsimp only
  split
  · exact .bind (.say _ _) fun _ => .take _ _
  · exact .take _ _

/-! ## Before and after the fit -/

/-- All that a program does before it fits a scene: the settings and the scene. -/
def prepare (o : Options) (source : Source) : Stage (FitSettings Float32 × Scene) := do
  openOutput o
  let c ← gatherSettings o
  let scene ← gatherScene o source
  keepSettings o c
  return (c, scene)

theorem program_eq (o : Options) (source : Source) :
    program o source = do
      let (c, scene) ← prepare o source
      return summaryLines o (← fitScene o c scene) := by
  simp [program, prepare]

theorem stays_prepare (o : Options) (source : Source) : (prepare o source).Stays :=
  .bind (stays_openOutput o) fun _ => .bind (stays_gatherSettings o) fun _ =>
    .bind (stays_gatherScene o source) fun _ => .bind (stays_writeOutput _ _ _ _) fun _ => .pure _

theorem fitScene_ok {c : FitSettings Float32} {scene : Scene} {solution : Solution}
    (fitted : (fitScene o c scene).run s = (.ok solution, s')) :
    ∃ fresh lines, Tells scene c (!o.noTrips) fresh lines ∧
      ∀ t, s'.files.read (ReportFiles.pathOf (s'.output o) t) = .ok (encode (lines.text t)) := by
  have place : s'.output o = s.output o := by
    have same := stays_fitScene o c scene s
    rw [fitted] at same
    exact congrArg (Path.ofString · o.outputText) same
  unfold fitScene at fitted
  obtain ⟨_, _, asked, fitted⟩ := run_bind_eq_ok.mp fitted
  cases asked
  rcases created : ReportFiles.create s.files (s.output o) with ⟨files, result⟩
  rw [created] at fitted
  obtain ⟨_, _, changed, fitted⟩ := run_bind_eq_ok.mp fitted
  cases changed
  obtain ⟨report, _, taken, fitted⟩ := run_bind_eq_ok.mp fitted
  obtain ⟨rfl, rfl⟩ := take_eq_ok.mp taken
  obtain ⟨_, _, changed, fitted⟩ := run_bind_eq_ok.mp fitted
  cases changed
  obtain ⟨_, _, noted, fitted⟩ := run_bind_eq_ok.mp fitted
  cases noted
  rw [place]
  suffices done : s'.files = (solve scene c (!o.noTrips) report).files ∧
      (solve scene c (!o.noTrips) report).result = .ok solution by
    rw [done.1]
    exact solve_ok created done.2
  cases refusal : (solve scene c (!o.noTrips) report).refusal with
  | none =>
    rw [refusal] at fitted
    obtain ⟨solved, rfl⟩ := take_eq_ok.mp fitted
    exact ⟨rfl, solved⟩
  | some fault =>
    rw [refusal] at fitted
    obtain ⟨_, _, said, fitted⟩ := run_bind_eq_ok.mp fitted
    cases said
    obtain ⟨solved, rfl⟩ := take_eq_ok.mp fitted
    exact ⟨rfl, solved⟩

/-- Keeping the log leaves the report as it is. -/
theorem read_keepLog {t : ReportTable} {bytes : Storage.Bytes}
    (held : s.files.read (ReportFiles.pathOf (s.output o) t) = .ok bytes) :
    (s.keepLog o).files.read (ReportFiles.pathOf (s.output o) t) = .ok bytes := by
  rw [Session.keepLog]
  dsimp only
  cases written : s.files.write ((s.output o).join logName) (encode (logText s.journal)) with
  | error fault => exact held
  | ok files =>
    refine FileTree.read_beside written ?_ held
    have log : ((s.output o).join logName).location = (s.output o).location ++ [logName] := by
      rw [Path.location_join]
      · rfl
      · with_unfolding_all rfl
      · decide
    rw [log, ReportFiles.location_pathOf]
    intro same
    have names : t.fileName = logName := (List.cons.inj (List.append_cancel_left same)).1
    cases t <;> exact absurd names (by decide)

/-- Arguments alone complete nothing. -/
theorem plan_ne_completed (arguments lines : List String) :
    plan arguments ≠ .error (.completed lines) := by
  unfold plan
  split
  · nofun
  · nofun
  · split <;> nofun

/-- A run that is completed leaves the tables of one snapshot: edge flows that it predicts, trips
drawn from it and, if a loss was finite, a list of its flows. Without a finite loss the list is
empty all the same. -/
theorem report_of_run_completed {files : FileTree} {place : Location}
    {arguments shown : List String} {session : Session}
    (completed : run files place arguments = (session, .completed shown)) :
    ∃ o source c scene ready fresh lines,
      plan arguments = .ok (o, source) ∧
      (prepare o source).run (.start files place) = (.ok (c, scene), ready) ∧
      Tells scene c (!o.noTrips) fresh lines ∧
      lines.In session.files ((Session.start files place).output o) := by
  rw [run] at completed
  cases planned : plan arguments with
  | error ending =>
    rw [planned] at completed
    cases completed
    exact absurd planned (plan_ne_completed arguments shown)
  | ok planning =>
    obtain ⟨o, source⟩ := planning
    rw [planned] at completed
    dsimp only [execute] at completed
    rcases ran : (program o source).run (.start files place) with ⟨result, last⟩
    rw [ran] at completed
    cases result with
    | error fault => cases completed
    | ok _ =>
      cases completed
      rw [program_eq] at ran
      obtain ⟨⟨c, scene⟩, ready, prepared, ran⟩ := run_bind_eq_ok.mp ran
      obtain ⟨solution, _, fitted, ended⟩ := run_bind_eq_ok.mp ran
      cases ended
      have place : last.output o = (Session.start files place).output o := by
        have before := stays_prepare o source (.start files place)
        have after := stays_fitScene o c scene ready
        rw [prepared] at before
        rw [fitted] at after
        exact congrArg (Path.ofString · o.outputText) (after.trans before)
      obtain ⟨fresh, lines, tells, held⟩ := fitScene_ok fitted
      refine ⟨o, source, c, scene, ready, fresh, lines, rfl, prepared, tells, ?_⟩
      rw [← place]
      exact ReportLines.in_of_texts fun t => read_keepLog (held t)

/-! ## A small run -/

/-- Two nodes, each in a cluster of its own, and an edge between them with a counter. -/
def sampleFiles : FileTree :=
  ⟨[("nodes.csv", .file (encode "id,x,y\na,0,0\nb,1,0\n")),
    ("links.csv", .file (encode "id,from,to,length\nab,a,b,1\n")),
    ("labels.csv", .file (encode "node_id,cluster\na,0\nb,1\n")),
    ("counts.csv", .file (encode "link_id,hour,volume\nab,8,5\n"))]⟩

def sampleArguments (steps : Nat) : List String :=
  ["--nodes=nodes.csv", "--links=links.csv", "--labels=labels.csv", "--counts=counts.csv",
    "--num-clusters=2", "--steps=" ++ toString steps, "--output=out"]

def sampleOptions (steps : Nat) : Options :=
  { nodes := some "nodes.csv", links := some "links.csv", labels := some "labels.csv"
    counts := some "counts.csv", clusterCount := some 2, steps := some steps, output := some "out" }

def sampleSource : Source := .tables "nodes.csv" "links.csv" "labels.csv" "counts.csv" 2

def sampleSettings (steps : Nat) : FitSettings Float32 := (sampleOptions steps).adjust .standard

def sampleNodes : List Node := [⟨"a", ⟨0, 0⟩⟩, ⟨"b", ⟨1, 0⟩⟩]

def sampleEdges : List Edge := [⟨"ab", ⟨0⟩, ⟨1⟩, 1⟩]

def sampleNetwork : Network := (Builder.filled sampleNodes sampleEdges).build "links"

def sampleClusters : Clustering := ⟨#[⟨0⟩, ⟨1⟩], #[⟨0⟩, ⟨1⟩], #[#[⟨0⟩], #[⟨1⟩]]⟩

def sampleTarget : Target Float32 :=
  ⟨#[Vector.ofFn fun h => if h.val = 8 then 5 else 0], [⟨0⟩]⟩

theorem describes_sample : Builder.Describes sampleNodes sampleEdges :=
  ⟨by decide, by decide, by decide, by decide, by decide⟩

/-- The session once the output is open. -/
def openedSample : Session := ((openOutput (sampleOptions 0)).run (.start sampleFiles [])).2

/-- The arguments are understood and the settings are accepted. -/
theorem arguments_sample : ∀ steps < 2,
    Options.ofArguments (sampleArguments steps) = .ok (sampleOptions steps) ∧
      (sampleOptions steps).source = .ok sampleSource ∧
      ((sampleOptions steps).adjust .standard).fault? = none := by
  decide

/-- The output opens, the labels make clusters and the count makes a target. -/
theorem computes_sample :
    ((openOutput (sampleOptions 0)).run (.start sampleFiles [])).1.isOk = true ∧
      Clustering.ofLabels sampleNetwork [0, 1] 2 = .ok sampleClusters ∧
      Counts.target sampleNetwork ⟨[⟨⟨0⟩, ⟨8, by decide⟩, 5⟩], [], none⟩ = .ok sampleTarget := by
  decide +kernel

/-- The tables are found where they were. -/
theorem find_sample :
    openedSample.files.find (openedSample.resolve "nodes.csv") =
        .ok (.file (encode "id,x,y\na,0,0\nb,1,0\n")) ∧
      openedSample.files.find (openedSample.resolve "links.csv") =
        .ok (.file (encode "id,from,to,length\nab,a,b,1\n")) ∧
      openedSample.files.find (openedSample.resolve "labels.csv") =
        .ok (.file (encode "node_id,cluster\na,0\nb,1\n")) ∧
      openedSample.files.find (openedSample.resolve "counts.csv") =
        .ok (.file (encode "link_id,hour,volume\nab,8,5\n")) := by
  decide +kernel

theorem plan_sample {steps : Nat} (few : steps < 2) :
    plan (sampleArguments steps) = .ok (sampleOptions steps, sampleSource) := by
  obtain ⟨options, source, -⟩ := arguments_sample steps few
  rw [plan, options]
  dsimp only
  rw [source]

theorem openOutput_sample (steps : Nat) :
    (openOutput (sampleOptions steps)).run (.start sampleFiles []) = (.ok (), openedSample) := by
  obtain ⟨opens, -⟩ := computes_sample
  have same : openOutput (sampleOptions steps) = openOutput (sampleOptions 0) := rfl
  have last : ((openOutput (sampleOptions 0)).run (.start sampleFiles [])).2 = openedSample := rfl
  rw [same]
  rcases ran : (openOutput (sampleOptions 0)).run (.start sampleFiles []) with ⟨fault | done, s⟩
  · rw [ran] at opens
    cases opens
  · rw [ran] at last
    rw [← last]

theorem gatherSettings_sample {steps : Nat} (few : steps < 2) :
    (gatherSettings (sampleOptions steps)).run openedSample =
      (.ok (sampleSettings steps), openedSample) := by
  obtain ⟨-, -, fine⟩ := arguments_sample steps few
  unfold gatherSettings
  extract_lets settle
  refine run_bind_eq_ok.mpr ⟨.standard, openedSample, rfl, ?_⟩
  dsimp only [settle]
  rw [fine]
  rfl

-- Names are looked up by their hashes, which do not compute, so that the tables are read by lemmas.
theorem load_network_sample :
    Network.load openedSample.files (openedSample.resolve "nodes.csv")
      (openedSample.resolve "links.csv") = .ok sampleNetwork := by
  obtain ⟨nodes, edges, -⟩ := find_sample
  rw [Network.load, nodes, edges]
  exact Network.ofRows_describes describes_sample "links"

theorem load_labels_sample :
    Labels.load openedSample.files sampleNetwork (openedSample.resolve "labels.csv") =
      .ok [0, 1] := by
  obtain ⟨-, -, table, -⟩ := find_sample
  have built : sampleNetwork.Built := Network.built_filled describes_sample "links"
  rw [Labels.load, table]
  refine @Labels.ofRows_ok _ [0, 1] [⟨0, "a"⟩, ⟨1, "b"⟩] built rfl ?_ ?_
  · intro line hl
    rcases List.mem_pair.mp hl with rfl | rfl
    · exact ⟨⟨0⟩, rfl, rfl⟩
    · exact ⟨⟨1⟩, rfl, rfl⟩
  · rintro ⟨_ | _ | n⟩ inside
    · exact ⟨⟨0, "a"⟩, by simp, rfl⟩
    · exact ⟨⟨1, "b"⟩, by simp, rfl⟩
    · exact absurd inside (Nat.not_lt_of_le (Nat.le_add_left 2 n))

theorem load_counts_sample :
    (Counts.load openedSample.files sampleNetwork (openedSample.resolve "counts.csv")).2 =
      .ok sampleTarget := by
  obtain ⟨-, -, -, table⟩ := find_sample
  have found : sampleNetwork.findEdge? "ab" = some ⟨0⟩ := Network.getElem?_byName (by decide) rfl
  have scanned : Counts.scan sampleNetwork [.ok (⟨"ab", 8, 5⟩ : CountRow Float32)] =
      ⟨[⟨⟨0⟩, ⟨8, by decide⟩, 5⟩], [], none⟩ := by
    simp only [Counts.scan, found]
    rfl
  rw [Counts.load, table]
  show Counts.target sampleNetwork (Counts.scan sampleNetwork [.ok ⟨"ab", 8, 5⟩]) = _
  rw [scanned]
  exact computes_sample.2.2

def gatheredSample : Gathered := ⟨sampleNetwork, sampleClusters, some sampleTarget⟩

/-- The session once the tables are read. -/
def readSample : Session :=
  { openedSample with
    journal := openedSample.journal ++ #[sampleNetwork.loadRecord] ++
      (Counts.load openedSample.files sampleNetwork (openedSample.resolve "counts.csv")).1 }

theorem gather_sample :
    (gather sampleSource).run openedSample = (.ok gatheredSample, readSample) := by
  obtain ⟨-, clustered, -⟩ := computes_sample
  refine run_bind_eq_ok.mpr ⟨openedSample, openedSample, rfl, ?_⟩
  refine run_bind_eq_ok.mpr ⟨sampleNetwork, _, take_eq_ok.mpr ⟨load_network_sample, rfl⟩, ?_⟩
  refine run_bind_eq_ok.mpr ⟨(), _, rfl, ?_⟩
  refine run_bind_eq_ok.mpr ⟨[0, 1], _, take_eq_ok.mpr ⟨load_labels_sample, rfl⟩, ?_⟩
  refine run_bind_eq_ok.mpr ⟨sampleClusters, _, take_eq_ok.mpr ⟨clustered, rfl⟩, ?_⟩
  refine run_bind_eq_ok.mpr ⟨(), _, rfl, ?_⟩
  exact run_bind_eq_ok.mpr ⟨sampleTarget, _, take_eq_ok.mpr ⟨load_counts_sample, rfl⟩, rfl⟩

/-- The rest of a run, and what it comes to. -/
def fittedSample (steps : Nat) : Except CommandFault (List String) × Session :=
  (do
    let scene ← sceneOf (sampleOptions steps) gatheredSample
    keepSettings (sampleOptions steps) (sampleSettings steps)
    return summaryLines (sampleOptions steps)
      (← fitScene (sampleOptions steps) (sampleSettings steps) scene) :
      Stage (List String)).run readSample

/-- The session that is left. -/
def leftSample (steps : Nat) : Session := (fittedSample steps).2.keepLog (sampleOptions steps)

/-- The run completes with and without a step, and only a step gives flows to list. -/
theorem fitted_sample :
    ((fittedSample 0).1.isOk = true ∧
      (leftSample 0).files.read (ReportFiles.pathOf ⟨[], ["out"]⟩ .flows) =
        .ok (encode ReportTable.flows.header)) ∧
    (fittedSample 1).1.isOk = true ∧
      (leftSample 1).files.read (ReportFiles.pathOf ⟨[], ["out"]⟩ .flows) ≠
        .ok (encode (Csv.writeRecords [ReportTable.flows.columns])) := by
  decide +kernel

theorem run_sample {steps : Nat} (few : steps < 2)
    (completes : (fittedSample steps).1.isOk = true) :
    ∃ shown, run sampleFiles [] (sampleArguments steps) = (leftSample steps, .completed shown) := by
  rcases rest : fittedSample steps with ⟨fault | shown, last⟩
  · rw [rest] at completes
    cases completes
  have ran : (program (sampleOptions steps) sampleSource).run (.start sampleFiles []) =
      (.ok shown, last) := by
    obtain ⟨scene, seen, gathered, ended⟩ := run_bind_eq_ok.mp rest
    refine run_bind_eq_ok.mpr ⟨(), _, openOutput_sample steps, ?_⟩
    refine run_bind_eq_ok.mpr ⟨_, _, gatherSettings_sample few, ?_⟩
    exact run_bind_eq_ok.mpr
      ⟨scene, seen, run_bind_eq_ok.mpr ⟨_, _, gather_sample, gathered⟩, ended⟩
  refine ⟨shown, ?_⟩
  rw [run, plan_sample few, leftSample, rest]
  dsimp only [execute]
  rw [ran]

/-- The loss of a single step is finite, so that its flows are listed. -/
theorem report_of_run_completed_sample :
    ∃ session shown, run sampleFiles [] (sampleArguments 1) = (session, .completed shown) ∧
      ∃ o source c scene ready fresh lines,
        plan (sampleArguments 1) = .ok (o, source) ∧
        (prepare o source).run (.start sampleFiles []) = (.ok (c, scene), ready) ∧
        Tells scene c (!o.noTrips) fresh lines ∧
        lines.In session.files ((Session.start sampleFiles []).output o) ∧
        (∃ x ∈ (fresh.advanceMany c.steps).2, x.loss.isFinite = true) := by
  obtain ⟨-, completes, filled⟩ := fitted_sample
  obtain ⟨shown, completed⟩ := run_sample (by decide) completes
  obtain ⟨o, source, c, scene, ready, fresh, lines, planned, prepared, tells, held⟩ :=
    report_of_run_completed completed
  refine ⟨_, shown, completed, o, source, c, scene, ready, fresh, lines, planned, prepared, tells,
    held, ?_⟩
  by_contra infinite
  have none : lines.flows = [] := by
    refine (tells.empty fun x told => ?_).1
    rw [Bool.eq_false_iff]
    exact fun finite => infinite ⟨x, told, finite⟩
  cases (plan_sample (by decide)).symm.trans planned
  have place : (Session.start sampleFiles []).output (sampleOptions 1) = ⟨[], ["out"]⟩ := by
    with_unfolding_all rfl
  have bare := held.flows.read fun _ _ => PairLine.eq_of_isRow
  rw [none, place] at bare
  exact filled bare

/-- A run without steps leaves a table of flows that lists no flows between its two clusters,
whatever they are. -/
theorem flows_unlisted_without_steps :
    ∃ session shown, run sampleFiles [] (sampleArguments 0) = (session, .completed shown) ∧
      ∀ b : Flows Float32, b.clusterCount = sampleClusters.clusterCount →
        session.files.read (ReportFiles.pathOf ⟨[], ["out"]⟩ .flows) ≠
          .ok (encode (ReportFiles.flowsText (pairLines b))) := by
  obtain ⟨⟨completes, held⟩, -⟩ := fitted_sample
  obtain ⟨shown, completed⟩ := run_sample (by decide) completes
  refine ⟨_, shown, completed, fun b clusters listed => ?_⟩
  have ended (fields : List String) : encode (Csv.writeRecord fields) ≠ [] := by
    unfold Csv.writeRecord
    intro none
    rw [Text.Utf8.encode_append, List.append_eq_nil_iff] at none
    exact absurd none.2 (by decide)
  have some : pairLines b ≠ [] := by
    rw [pairLines, clusters]
    exact List.cons_ne_nil _ _
  obtain ⟨first, others, lines⟩ := List.exists_cons_of_ne_nil some
  rw [held, Except.ok.injEq, ReportFiles.flowsText, lines, List.map_cons, Csv.writeRecords_cons,
    Csv.writeRecords_cons, ReportTable.header, Text.Utf8.encode_append, List.self_eq_append_right,
    Text.Utf8.encode_append, List.append_eq_nil_iff] at listed
  exact ended _ listed.1

end RoadFlow.Command
