import RoadFlow.Cache.Store
import RoadFlow.Fit.State
import RoadFlow.Proofs.Cluster.Clustering
import RoadFlow.Proofs.Except
import RoadFlow.Proofs.Fit.Resumption
import RoadFlow.Report.Line
import RoadFlow.Trip

/-!
# Faults of shape

A call that refuses its input for its shape names two sizes that should agree. Where each test
compares one pair of sizes, these are the two that differ. Saving a matrix, resuming a fit and
drawing trips compare two pairs in one test and name the first of them, so that a call on which the
second pair alone differs names two equal numbers. These are all the calls that do so
(`names_equal_sizes_iff`).
-/

namespace RoadFlow

open Storage (FileTree Path)

/-! ## Calls and their faults -/

/-- The sizes that a fault names differ. -/
def ShapeFault.Real (f : ShapeFault) : Prop := f.expected ≠ f.got

def MatrixFault.shape? : MatrixFault → Option ShapeFault
  | .shape fault => some fault
  | _ => none

def FitFault.shape? {α : Type} : FitFault α → Option ShapeFault
  | .shape fault => some fault
  | .matrix fault => fault.shape?
  | _ => none

/-- The shape fault among the faults that a call may fail with. -/
def shapeFault? {ε γ : Type} (shape? : ε → Option ShapeFault) : Except ε γ → Option ShapeFault
  | .ok _ => none
  | .error fault => shape? fault

/-- A call that looks at the shape of its input. -/
inductive ShapedCall (α β : Type) where
  | ofColumns (edgeCount clusters : Nat) (columns : List (List EdgeId))
  | load (files : FileTree) (path : Path) (key : Cache.Key)
  | save (files : FileTree) (path : Path) (m : AssignmentMatrix) (key : Cache.Key)
  | times (m : AssignmentMatrix) (flows : Grid α)
  | transposeTimes (m : AssignmentMatrix) (edges : Grid α)
  | ofLabels (net : Network) (labels : List Nat) (clusters : Nat)
  | ofCentroids (net : Network) (labels : List Nat) (centroids : List NodeId)
  | assemble (engine : Engine β) (net : Network) (clusters : Clustering)
  | target (counts : Grid α) (sensors : List EdgeId)
  | start (m : AssignmentMatrix) (t : Target α) (c : FitSettings α)
  | resume (m : AssignmentMatrix) (t : Target α) (c : FitSettings α) (checkpoint : Flows α)
  | sample (flows : Flows α) (clusters : Clustering) (s : Random.Stream)
  | edgeLines (net : Network) (predicted : Grid Float32)

/-- Two pairs of sizes that one test compares, the second of them not reported. -/
structure JointTest where
  reported : ShapeFault
  expected : Nat
  got : Nat

namespace JointTest

def Fails (test : JointTest) : Prop := test.reported.Real ∨ test.expected ≠ test.got

/-- A matrix against the key that it is saved under. -/
def ofKey (m : AssignmentMatrix) (key : Cache.Key) : JointTest :=
  ⟨⟨"TAM edge count vs cache key", key.edgeCount, m.edgeCount⟩, key.clusterCount, m.clusterCount⟩

/-- The flows of a checkpoint against the matrix that a fit goes on with. -/
def ofCheckpoint {α : Type} (m : AssignmentMatrix) (checkpoint : Flows α) : JointTest :=
  ⟨⟨"checkpoint flow rows", m.width, checkpoint.pairs.rows⟩, hoursPerDay, checkpoint.pairs.cols⟩

/-- Flows against the clusters that trips are drawn for. -/
def ofFlows {α : Type} (flows : Flows α) (clusters : Clustering) : JointTest :=
  ⟨⟨"flow rows", clusters.clusterCount * clusters.clusterCount, flows.pairs.rows⟩, hoursPerDay,
    flows.pairs.cols⟩

end JointTest

namespace ShapedCall

variable {α β : Type} [Scalar α] [TripCount α] [PathCost β]

/-- The shape fault that a call fails with, if it fails with one. -/
def fault? : ShapedCall α β → Option ShapeFault
  | ofColumns edgeCount clusters columns =>
    shapeFault? MatrixFault.shape? (AssignmentMatrix.ofColumns edgeCount clusters columns)
  | load files path key => shapeFault? MatrixFault.shape? (Cache.load files path key)
  | save files path m key => shapeFault? MatrixFault.shape? (Cache.save files path m key).2
  | times m flows => shapeFault? MatrixFault.shape? (m.times flows)
  | transposeTimes m edges => shapeFault? MatrixFault.shape? (m.transposeTimes edges)
  | ofLabels net labels clusters =>
    shapeFault? MatrixFault.shape? (Clustering.ofLabels net labels clusters)
  | ofCentroids net labels centroids =>
    shapeFault? MatrixFault.shape? (Clustering.ofCentroids net labels centroids)
  | assemble engine net clusters =>
    shapeFault? MatrixFault.shape? (Assembly.ofEngine engine net clusters)
  | target counts sensors => shapeFault? FitFault.shape? (Target.ofGrid counts sensors)
  | start m t c => shapeFault? FitFault.shape? (Fit.start m t c)
  | resume m t c checkpoint => shapeFault? FitFault.shape? (Fit.resume m t c checkpoint)
  | sample flows clusters s => shapeFault? FitFault.shape? (Trips.sample flows clusters s).2
  | edgeLines net predicted => shapeFault? some (RoadFlow.edgeLines net predicted)

/-- The test of two pairs of sizes that a call comes to. -/
def joint? : ShapedCall α β → Option JointTest
  | save _ _ m key => some (.ofKey m key)
  | resume m t c checkpoint =>
    if Fit.inputFault? m t c = none ∧ checkpoint.clusterCount = m.clusterCount then
      some (.ofCheckpoint m checkpoint)
    else none
  | sample flows clusters _ =>
    if flows.clusterCount = clusters.clusterCount then some (.ofFlows flows clusters) else none
  | _ => none

end ShapedCall

/-! ## Tests of one pair of sizes -/

/-- A fault that names sizes names two that differ. -/
def MatrixFault.Sincere (fault : MatrixFault) : Prop := ∀ f ∈ fault.shape?, f.Real

def FitFault.Sincere {α : Type} (fault : FitFault α) : Prop := ∀ f ∈ fault.shape?, f.Real

theorem real_of_failsOnly {ε γ : Type} {shape? : ε → Option ShapeFault} {x : Except ε γ}
    (sincere : FailsOnly (fun e => ∀ f ∈ shape? e, f.Real) x) {f : ShapeFault}
    (found : shapeFault? shape? x = some f) : f.Real := by
  cases x with
  | ok a => cases found
  | error e => exact sincere e rfl f found

section Matrices

open FailsOnly

theorem MatrixFault.sincere_shape {what : String} {expected got : Nat} (differ : got ≠ expected) :
    (MatrixFault.shape ⟨what, expected, got⟩).Sincere := by
  intro f mem
  cases mem
  exact differ.symm

theorem sincere_ofColumns (edgeCount clusters : Nat) (columns : List (List EdgeId)) :
    FailsOnly MatrixFault.Sincere (AssignmentMatrix.ofColumns edgeCount clusters columns) := by
  unfold AssignmentMatrix.ofColumns
  dsimp only
  split
  · exact error nofun
  · split
    · rename_i differ
      exact error (MatrixFault.sincere_shape differ)
    · refine FailsOnly.bind (FailsOnly.mapM ?_ _) fun _ => ok _
      rintro ⟨edges, c⟩
      unfold AssignmentMatrix.checkColumn
      dsimp only
      split
      · exact error nofun
      · split
        · exact error nofun
        · exact ok _

theorem sincere_read (key : Cache.Key) (bytes : Cache.Bytes) :
    FailsOnly MatrixFault.Sincere (Cache.read key bytes) := by
  refine FailsOnly.bind (FailsOnly.mapError fun _ _ => nofun) fun archive => ?_
  split
  · exact error nofun
  · unfold Cache.Archive.toMatrix
    dsimp only
    split
    · rename_i differ
      exact error (MatrixFault.sincere_shape differ)
    · split
      · exact error nofun
      · exact sincere_ofColumns _ _ _

theorem sincere_load (files : FileTree) (path : Path) (key : Cache.Key) :
    FailsOnly MatrixFault.Sincere (Cache.load files path key) :=
  FailsOnly.bind (FailsOnly.mapError fun _ _ => nofun) (sincere_read key)

theorem sincere_times {α : Type} [Scalar α] (m : AssignmentMatrix) (flows : Grid α) :
    FailsOnly MatrixFault.Sincere (m.times flows) := by
  unfold AssignmentMatrix.times
  split
  · rename_i differ
    exact error (MatrixFault.sincere_shape differ)
  · exact ok _

theorem sincere_transposeTimes {α : Type} [Scalar α] (m : AssignmentMatrix) (edges : Grid α) :
    FailsOnly MatrixFault.Sincere (m.transposeTimes edges) := by
  unfold AssignmentMatrix.transposeTimes
  split
  · rename_i differ
    exact error (MatrixFault.sincere_shape differ)
  · exact ok _

theorem sincere_grouping (net : Network) (labels : List Nat) (clusters : Nat) :
    FailsOnly MatrixFault.Sincere (Grouping.ofLabels net labels clusters) := by
  unfold Grouping.ofLabels
  split
  · exact error nofun
  · split
    · rename_i differ
      exact error (MatrixFault.sincere_shape differ)
    · refine FailsOnly.bind (FailsOnly.foldlM ?_ _ _) fun g => ?_
      · intro g label
        unfold Grouping.add
        dsimp only
        split
        · exact error nofun
        · exact ok _
      · split
        · exact error nofun
        · exact ok _

theorem sincere_ofLabels (net : Network) (labels : List Nat) (clusters : Nat) :
    FailsOnly MatrixFault.Sincere (Clustering.ofLabels net labels clusters) := by
  refine FailsOnly.bind (sincere_grouping _ _ _) fun g => ?_
  refine FailsOnly.bind (FailsOnly.mapM ?_ _) fun _ => ok _
  rintro ⟨nodes, c⟩
  dsimp only
  split
  · exact ok _
  · exact error nofun

theorem sincere_checkNodes (net : Network) (nodes : List NodeId) :
    FailsOnly MatrixFault.Sincere
      (nodes.forM fun n => (net.checkNode n).mapError MatrixFault.network) :=
  FailsOnly.forM (fun _ => FailsOnly.mapError fun _ _ => nofun) nodes

theorem sincere_ofCentroids (net : Network) (labels : List Nat) (centroids : List NodeId) :
    FailsOnly MatrixFault.Sincere (Clustering.ofCentroids net labels centroids) :=
  FailsOnly.bind (sincere_grouping _ _ _) fun _ =>
    FailsOnly.bind (sincere_checkNodes net centroids) fun _ => ok _

theorem sincere_assemble {β : Type} [PathCost β] (engine : Engine β) (net : Network)
    (clusters : Clustering) :
    FailsOnly MatrixFault.Sincere (Assembly.ofEngine engine net clusters) := by
  unfold Assembly.ofEngine
  split
  · rename_i differ
    exact error (MatrixFault.sincere_shape differ)
  · refine FailsOnly.bind (sincere_checkNodes net _) fun _ => ?_
    refine FailsOnly.bind (FailsOnly.mapM ?_ _) fun _ =>
      FailsOnly.bind (sincere_ofColumns _ _ _) fun _ => ok _
    intro origin
    refine FailsOnly.bind (FailsOnly.mapError fun _ _ => nofun) fun tree => ?_
    refine FailsOnly.bind (FailsOnly.mapM ?_ _) fun _ => ok _
    intro destination
    unfold Assembly.pairBlock
    dsimp only
    split
    · exact ok _
    · split
      · exact ok _
      · exact ok _
      · exact error nofun

end Matrices

/-! ## Fits and trips -/

section Fits

open FailsOnly

variable {α : Type}

theorem FitFault.sincere_shape {what : String} {expected got : Nat} (differ : got ≠ expected) :
    (FitFault.shape ⟨what, expected, got⟩ : FitFault α).Sincere := by
  intro f mem
  cases mem
  exact differ.symm

variable [Scalar α]

theorem sincere_target (counts : Grid α) (sensors : List EdgeId) :
    FailsOnly FitFault.Sincere (Target.ofGrid counts sensors) := by
  unfold Target.ofGrid
  split
  · rename_i other
    have differ : counts.cols ≠ hoursPerDay := by
      intro same
      simp [Grid.rowsOfWidth?, same] at other
    exact error (FitFault.sincere_shape differ)
  · unfold Target.check
    split
    · exact error nofun
    · split
      · exact error nofun
      · exact ok _

theorem sincere_inputFault? {m : AssignmentMatrix} {t : Target α} {c : FitSettings α}
    {fault : FitFault α} (found : Fit.inputFault? m t c = some fault) : fault.Sincere := by
  unfold Fit.inputFault? at found
  split at found
  · cases found
    nofun
  · split at found
    · rename_i differ
      cases found
      exact FitFault.sincere_shape differ
    · split at found
      · cases found
        nofun
      · cases found

theorem sincere_start (m : AssignmentMatrix) (t : Target α) (c : FitSettings α) :
    FailsOnly FitFault.Sincere (Fit.start m t c) := by
  unfold Fit.start
  split
  · rename_i found
    exact error (sincere_inputFault? found)
  · exact ok _

theorem sincere_resumedBias (c : FitSettings α) (bias : Option (Array α)) :
    FailsOnly FitFault.Sincere (Fit.resumedBias c bias) := by
  unfold Fit.resumedBias
  split
  · exact ok _
  · split
    · refine FailsOnly.map ?_
      unfold Fit.hourlyBias
      split
      · exact ok _
      · rename_i differ
        exact error (FitFault.sincere_shape differ)
    · exact ok _

end Fits

/-! ## Tests of two pairs of sizes -/

/-- A joint test comes before anything else that a call could find wrong with sizes: where it fails
its first pair is the fault, and where it does not all faults name sizes that differ. -/
structure JointTest.Decides {ε γ : Type} (test : JointTest) (shape? : ε → Option ShapeFault)
    (x : Except ε γ) : Prop where
  fails : test.Fails → shapeFault? shape? x = some test.reported
  passes : ¬ test.Fails → FailsOnly (fun e => ∀ f ∈ shape? e, f.Real) x

section Joint

variable {α : Type}

theorem decides_save (files : FileTree) (path : Path) (m : AssignmentMatrix) (key : Cache.Key) :
    (JointTest.ofKey m key).Decides MatrixFault.shape? (Cache.save files path m key).2 := by
  by_cases refused : m.edgeCount ≠ key.edgeCount ∨ m.clusterCount ≠ key.clusterCount
  · have written : Cache.write key m =
        .error (.shape ⟨"TAM edge count vs cache key", key.edgeCount, m.edgeCount⟩) :=
      if_pos refused
    refine ⟨fun _ => ?_, fun passed => absurd (refused.imp Ne.symm Ne.symm) passed⟩
    rw [Cache.save, written]
    rfl
  · have written : Cache.write key m = .ok (Cache.Archive.ofMatrix key m).encode := if_neg refused
    refine ⟨fun fails => absurd (fails.imp Ne.symm Ne.symm) refused, fun _ => ?_⟩
    rw [Cache.save, written]
    exact FailsOnly.mapError fun _ _ => nofun

theorem sincere_tooMany? [TripCount α] {flows : Flows α} {clusters : Nat} {fault : FitFault α}
    (found : Trips.tooMany? flows clusters = some fault) : fault.Sincere := by
  obtain ⟨⟨c, h, flow⟩, -, limit⟩ := Option.bind_eq_some_iff.mp found
  dsimp only at limit
  split at limit
  · cases limit
    nofun
  · cases limit

variable [Scalar α]

theorem decides_resumedFlows (m : AssignmentMatrix) (checkpoint : Flows α) :
    (JointTest.ofCheckpoint m checkpoint).Decides FitFault.shape?
      (Fit.resumedFlows m checkpoint) := by
  unfold Fit.resumedFlows
  dsimp only
  split
  · rename_i other
    have differ : hoursPerDay ≠ checkpoint.pairs.cols := by
      intro same
      simp [Grid.rowsOfWidth?, ← same] at other
    exact ⟨fun _ => rfl, fun passed => absurd (.inr differ) passed⟩
  · rename_i rows found
    obtain ⟨cols, height⟩ := Grid.size_rowsOfWidth found
    split
    · rename_i differ
      rw [height] at differ
      exact ⟨fun _ => rfl, fun passed => absurd (.inl differ.symm) passed⟩
    · rename_i size
      rw [not_not, height] at size
      refine ⟨fun fails => ?_, fun _ => FailsOnly.ok _⟩
      rcases fails with rows | hours
      · exact absurd size.symm rows
      · exact absurd cols.symm hours

theorem decides_resume {m : AssignmentMatrix} {t : Target α} {c : FitSettings α}
    {checkpoint : Flows α} (inputs : Fit.inputFault? m t c = none)
    (clusters : checkpoint.clusterCount = m.clusterCount) :
    (JointTest.ofCheckpoint m checkpoint).Decides FitFault.shape?
      (Fit.resume m t c checkpoint) := by
  have stepwise : Fit.resume m t c checkpoint = (do
      let pairs ← Fit.resumedFlows m checkpoint
      let bias ← Fit.resumedBias c checkpoint.bias
      return Fit.ofParts m t c pairs bias checkpoint.step (some checkpoint)) := by
    rw [Fit.resume, inputs]
    exact if_neg (not_not.mpr clusters)
  obtain ⟨fails, passes⟩ := decides_resumedFlows m checkpoint
  rw [stepwise]
  constructor
  · intro failed
    cases flows : Fit.resumedFlows m checkpoint with
    | error fault => rw [← fails failed, flows]; rfl
    | ok pairs => cases flows ▸ fails failed
  · intro passed
    exact (passes passed).bind fun _ => (sincere_resumedBias c _).bind fun _ => FailsOnly.ok _

theorem decides_sample [TripCount α] {flows : Flows α} {clusters : Clustering} (s : Random.Stream)
    (count : flows.clusterCount = clusters.clusterCount) :
    (JointTest.ofFlows flows clusters).Decides FitFault.shape?
      (Trips.sample flows clusters s).2 := by
  by_cases refused : flows.pairs.rows ≠ clusters.clusterCount * clusters.clusterCount ∨
      flows.pairs.cols ≠ hoursPerDay
  · have found : Trips.fault? flows clusters = some (.shape ⟨"flow rows",
        clusters.clusterCount * clusters.clusterCount, flows.pairs.rows⟩) :=
      (if_neg (not_not.mpr count)).trans (if_pos refused)
    refine ⟨fun _ => ?_, fun passed => absurd (refused.imp Ne.symm Ne.symm) passed⟩
    rw [Trips.sample, found]
    rfl
  · have found : Trips.fault? flows clusters = Trips.tooMany? flows clusters.clusterCount :=
      (if_neg (not_not.mpr count)).trans (if_neg refused)
    refine ⟨fun fails => absurd (fails.imp Ne.symm Ne.symm) refused, fun _ => ?_⟩
    unfold Trips.sample
    rw [found]
    split
    · rename_i fault many
      exact FailsOnly.error (sincere_tooMany? many)
    · exact FailsOnly.ok _

end Joint

/-! ## All calls -/

namespace ShapedCall

variable {α β : Type} [Scalar α] [TripCount α] [PathCost β]

theorem real_of_joint_none {call : ShapedCall α β} {f : ShapeFault} (alone : call.joint? = none)
    (found : call.fault? = some f) : f.Real := by
  cases call with
  | ofColumns edgeCount clusters columns =>
    exact real_of_failsOnly (sincere_ofColumns edgeCount clusters columns) found
  | load files path key => exact real_of_failsOnly (sincere_load files path key) found
  | save files path m key => cases alone
  | times m flows => exact real_of_failsOnly (sincere_times m flows) found
  | transposeTimes m edges => exact real_of_failsOnly (sincere_transposeTimes m edges) found
  | ofLabels net labels clusters =>
    exact real_of_failsOnly (sincere_ofLabels net labels clusters) found
  | ofCentroids net labels centroids =>
    exact real_of_failsOnly (sincere_ofCentroids net labels centroids) found
  | assemble engine net clusters =>
    exact real_of_failsOnly (sincere_assemble engine net clusters) found
  | target counts sensors => exact real_of_failsOnly (sincere_target counts sensors) found
  | start m t c => exact real_of_failsOnly (sincere_start m t c) found
  | resume m t c checkpoint =>
    have sincere : FailsOnly FitFault.Sincere (Fit.resume m t c checkpoint) := by
      unfold Fit.resume
      split
      · rename_i fault inputs
        exact FailsOnly.error (sincere_inputFault? inputs)
      · rename_i inputs
        split
        · rename_i differ
          exact FailsOnly.error (FitFault.sincere_shape differ)
        · rename_i clusters
          rw [not_not] at clusters
          simp [joint?, inputs, clusters] at alone
    exact real_of_failsOnly sincere found
  | sample flows clusters s =>
    have differ : flows.clusterCount ≠ clusters.clusterCount := by
      intro same
      simp [joint?, same] at alone
    have refused : Trips.fault? flows clusters =
        some (.shape ⟨"flow clusters", clusters.clusterCount, flows.clusterCount⟩) := if_pos differ
    have sincere : FailsOnly FitFault.Sincere (Trips.sample flows clusters s).2 := by
      rw [Trips.sample, refused]
      exact FailsOnly.error (FitFault.sincere_shape differ)
    exact real_of_failsOnly sincere found
  | edgeLines net predicted =>
    have sincere : FailsOnly (fun e => ∀ f ∈ some e, f.Real)
        (RoadFlow.edgeLines net predicted) := by
      unfold RoadFlow.edgeLines
      split
      · rename_i differ
        refine FailsOnly.error fun f same => ?_
        cases same
        exact differ.symm
      · exact FailsOnly.ok _
    exact real_of_failsOnly sincere found

/-- Where there is a joint test, it decides. -/
theorem joint_decides {call : ShapedCall α β} {test : JointTest} (joint : call.joint? = some test) :
    (test.Fails → call.fault? = some test.reported) ∧
      (¬ test.Fails → ∀ f, call.fault? = some f → f.Real) := by
  have decided {ε γ : Type} {shape? : ε → Option ShapeFault} {x : Except ε γ}
      (decides : test.Decides shape? x) :
      (test.Fails → shapeFault? shape? x = some test.reported) ∧
        (¬ test.Fails → ∀ f, shapeFault? shape? x = some f → f.Real) :=
    ⟨decides.fails, fun passed _ found => real_of_failsOnly (decides.passes passed) found⟩
  cases call with
  | save files path m key =>
    cases joint
    exact decided (decides_save files path m key)
  | resume m t c checkpoint =>
    obtain ⟨⟨inputs, clusters⟩, same⟩ := Option.ite_none_right_eq_some.mp joint
    cases same
    exact decided (decides_resume inputs clusters)
  | sample flows clusters s =>
    obtain ⟨count, same⟩ := Option.ite_none_right_eq_some.mp joint
    cases same
    exact decided (decides_sample s count)
  | _ => cases joint

end ShapedCall

/-- A call names two equal sizes when the sizes that its joint test reports agree and the others,
which it does not report, differ. No other call does. -/
theorem names_equal_sizes_iff {α β : Type} [Scalar α] [TripCount α] [PathCost β]
    (call : ShapedCall α β) (f : ShapeFault) :
    call.fault? = some f ∧ f.expected = f.got ↔
      ∃ test, call.joint? = some test ∧ f = test.reported ∧ f.expected = f.got ∧
        test.expected ≠ test.got := by
  constructor
  · rintro ⟨found, same⟩
    cases joint : call.joint? with
    | none => exact absurd same (ShapedCall.real_of_joint_none joint found)
    | some test =>
      obtain ⟨fails, passes⟩ := ShapedCall.joint_decides joint
      by_cases failed : test.Fails
      · obtain rfl : test.reported = f := Option.some.inj ((fails failed).symm.trans found)
        exact ⟨test, rfl, rfl, same, failed.resolve_left (not_not.mpr same)⟩
      · exact absurd same (passes failed f found)
  · rintro ⟨test, joint, rfl, same, differ⟩
    exact ⟨(ShapedCall.joint_decides joint).1 (.inr differ), same⟩

/-- A matrix of two clusters saved under a key of one, a checkpoint of 23 hours gone on with, and
trips drawn from flows of 23 hours. -/
theorem equal_sizes_named :
    (ShapedCall.save .empty ⟨[], ["x.bin"]⟩ .sample ⟨"sample", 0, 3, 1, .length⟩ :
      ShapedCall Float32 Float).fault? = some ⟨"TAM edge count vs cache key", 3, 3⟩ ∧
    (ShapedCall.resume .sample .sample .standard ⟨2, .ofFn 4 23 fun _ _ => 0, none, 0, 0, 0⟩ :
      ShapedCall Float32 Float).fault? = some ⟨"checkpoint flow rows", 4, 4⟩ ∧
    (ShapedCall.sample ⟨3, .ofFn 9 23 fun _ _ => 0, none, 0, 0, 0⟩ .sample (.ofSeed 0) :
      ShapedCall Float32 Float).fault? = some ⟨"flow rows", 9, 9⟩ := by
  refine ⟨rfl, ?_, rfl⟩
  rw [ShapedCall.fault?, Fit.resume, Fit.inputFault?_sample]
  rfl

end RoadFlow
